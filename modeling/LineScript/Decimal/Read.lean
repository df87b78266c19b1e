/-
# Reading decimal numbers

`isLiteral` is the form of a number in a script: digits, an optional sign and an optional fraction.
`read?` reads that form and the wider one with exponents and names for the special values; the result is
the double nearest to the written number, halves going to the even neighbour.
-/
import LineScript.Text.Blank
import LineScript.Decimal.Binary64

namespace LineScript.Decimal

open LineScript.Text

/-! ## Number literals -/

/-- Is this a number as scripts write it: `-?[0-9]+(\.[0-9]+)?`? -/
def isLiteral (s : String) : Bool :=
  let unsigned := match s.toList with
    | '-' :: rest => rest
    | cs => cs
  match cut '.' unsigned with
  | some (whole, fraction) => isDigits whole && isDigits fraction
  | none => isDigits unsigned

/-! ## Nearest double -/

/-- The double nearest to `digits · 10 ^ exponent`. -/
def nearest (digits : Nat) (exponent : Int) : Float :=
  if digits = 0 then 0.0
  else if exponent < 0 then Float.ofScientific digits true exponent.natAbs
  else Float.ofScientific digits false exponent.natAbs

/-- Read an exponent after its mark: an optional sign and digits. -/
def exponent? (cs : List Char) : Option Int :=
  match cs with
  | '-' :: ds => if isDigits ds then some (-(digitsValue ds : Int)) else none
  | '+' :: ds => if isDigits ds then some (digitsValue ds) else none
  | ds => if isDigits ds then some (digitsValue ds) else none

/-- Read an unsigned decimal number with optional fraction and exponent. -/
def unsigned? (cs : List Char) : Option Float := do
  let mantissa := cs.takeWhile fun c => isDigit c || c == '.'
  let mark := cs.dropWhile fun c => isDigit c || c == '.'
  let scale ← match mark with
    | [] => some 0
    | e :: ds => if e == 'e' || e == 'E' then exponent? ds else none
  let (whole, fraction) := (cut '.' mantissa).getD (mantissa, [])
  guard ((whole ++ fraction).all isDigit && !(whole ++ fraction).isEmpty)
  return nearest (digitsValue (whole ++ fraction)) (scale - fraction.length)

/-- Read a decimal number, also `inf` and `NaN`, after an optional sign. -/
def read? (s : String) : Option Float :=
  let special (cs : List Char) : Option Float :=
    let lower := cs.map Char.toLower
    if lower = "inf".toList || lower = "infinity".toList then some (1.0 / 0.0)
    else if lower = "nan".toList then some (0.0 / 0.0)
    else unsigned? cs
  match s.toList with
  | '-' :: rest => (special rest).map (- ·)
  | '+' :: rest => special rest
  | cs => special cs

end LineScript.Decimal
