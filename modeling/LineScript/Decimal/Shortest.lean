/-
# Shortest decimal text of a double

Among the decimal numbers that read back as a given double, the text shows one with the fewest
significant digits, and of those the nearest; of two equally near ones it shows the larger.

For each number of digits the only candidates are the two neighbours of the value on that decimal grid,
so the search tests those two, in exact arithmetic, for one digit, two digits and so on.
-/
import LineScript.Decimal.Binary64

namespace LineScript.Decimal

/-- A positive decimal number `digits · 10 ^ exponent`. -/
structure Scientific where
  digits : Nat
  exponent : Int
  deriving Repr, DecidableEq

/-! ## The interval that reads back -/

/-- The value of a double and the ends of the interval that rounds to it, as natural numbers over the
common unit `2 ^ unit`. -/
structure Interval where
  value : Nat
  low : Nat
  high : Nat
  /-- The ends themselves round to the value. -/
  closed : Bool
  unit : Int

/-- The interval of a positive double.  Below a power of two the next double is half as far away. -/
def Parts.interval (p : Parts) : Interval :=
  let m := p.significand
  let narrow := m = pow2 52 ∧ p.exponent ≠ -1074
  { value := 4 * m
    low := if narrow then 4 * m - 1 else 4 * m - 2
    high := 4 * m + 2
    closed := m % 2 = 0
    unit := p.exponent - 2 }

/-- The interval scaled so that the decimal grid `10 ^ e` has the whole step `step`. -/
structure Ruler where
  value : Nat
  low : Nat
  high : Nat
  closed : Bool
  step : Nat

/-- Scale an interval to the grid `10 ^ e`: multiply all by the powers that make it whole. -/
def Interval.ruler (i : Interval) (e : Int) : Ruler :=
  let up := pow2 i.unit.toNat * pow10 (-e).toNat
  { value := i.value * up
    low := i.low * up
    high := i.high * up
    closed := i.closed
    step := pow10 e.toNat * pow2 (-i.unit).toNat }

/-- Does a point of the grid read back as the value? -/
def Ruler.reads (r : Ruler) (point : Nat) : Bool :=
  if r.closed then r.low ≤ point && point ≤ r.high else r.low < point && point < r.high

/-- The neighbour of the value that reads back, the nearer one when both do. -/
def Ruler.nearest? (r : Ruler) : Option Nat :=
  let below := r.value / r.step
  let above := below + 1
  let down := r.reads (below * r.step)
  let up := r.reads (above * r.step)
  if down && up then
    some (if above * r.step - r.value ≤ r.value - below * r.step then above else below)
  else if down then some below
  else if up then some above
  else none

/-! ## The search -/

/-- The number of decimal digits of a natural number. -/
def digitCount (n : Nat) : Nat := (Nat.toDigits 10 n).length

/-- The exponent of the leading decimal digit of `value · 2 ^ unit`. -/
def Interval.magnitude (i : Interval) : Int :=
  if 0 ≤ i.unit then (digitCount (i.value * pow2 i.unit.toNat) : Int) - 1
  else
    let scale := pow2 (-i.unit).toNat
    if scale ≤ i.value then (digitCount (i.value / scale) : Int) - 1
    else
      -- the first power of ten that lifts the value to one or more
      let guess := digitCount (scale / i.value)
      if scale ≤ i.value * pow10 (guess - 1) then 1 - (guess : Int) else -(guess : Int)

/-- Try grids with `count`, `count + 1`, … digits. -/
def Interval.search (i : Interval) (magnitude : Int) : (tries : Nat) → (count : Nat) → Scientific
  | 0, _ => ⟨0, 0⟩
  | tries + 1, count =>
    let e := magnitude - count + 1
    match (i.ruler e).nearest? with
    | some digits => ⟨digits, e⟩
    | none => i.search magnitude tries (count + 1)

/-- The shortest decimal number that reads back as a positive double.  Seventeen digits always do. -/
def Parts.shortest (p : Parts) : Scientific :=
  let i := p.interval
  i.search i.magnitude 17 1

/-! ## Positional text -/

/-- The digits of a natural number. -/
def naturalText (n : Nat) : String := String.ofList (Nat.toDigits 10 n)

/-- The decimal text of an integer. -/
def integerText : Int → String
  | .ofNat n => naturalText n
  | .negSucc n => "-" ++ naturalText (n + 1)

/-- A decimal number without exponent; a whole number has no point, and the fraction ends in a digit
other than zero. -/
def Scientific.positional (s : Scientific) : String :=
  if 0 ≤ s.exponent then naturalText (s.digits * pow10 s.exponent.toNat)
  else
    let places := (-s.exponent).toNat
    let digits := Nat.toDigits 10 s.digits
    let padded := List.replicate (places + 1 - digits.length) '0' ++ digits
    let whole := padded.take (padded.length - places)
    let fraction := padded.drop (padded.length - places)
    let kept := (fraction.reverse.dropWhile (· = '0')).reverse
    String.ofList (if kept.isEmpty then whole else whole ++ '.' :: kept)

/-- How a number is written: whole numbers below `10 ^ 15` in size as integers, so that a negative zero
has no sign; others with the fewest digits that read back, never with an exponent. -/
def text (x : Float) : String :=
  match parts? x with
  | none => if x.isNaN then "NaN" else if x < 0 then "-inf" else "inf"
  | some p =>
    match p.whole? with
    | some size =>
      if size < pow10 15 then integerText (if p.negative then -(size : Int) else size)
      else (if p.negative then "-" else "") ++ p.shortest.positional
    | none => (if p.negative then "-" else "") ++ p.shortest.positional

end LineScript.Decimal
