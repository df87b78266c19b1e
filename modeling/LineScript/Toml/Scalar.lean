/-
# Scalars of TOML

Truth values, numbers, dates and times.  `scalar?` reads all characters of one, as `takeScalar` cuts it from
a text: none of the characters that may follow a scalar can stand in it, so the cut needs no look-ahead, but
for a date and a time with a blank between them.

The values of floats, dates and times do not matter to the library, so `Scalar` only names their kind.
-/
import LineScript.Decimal.Read

namespace LineScript.Toml

open LineScript.Text LineScript.Decimal

/-- A value written in one piece. -/
inductive Scalar
  | truth (b : Bool)
  | integer (n : Int)
  | float
  /-- A date, a time, or both. -/
  | moment
  deriving DecidableEq, Repr, Inhabited

/-! ## Digits -/

/-- The digits of a run in which single underscores may stand between digits. -/
def grouped? (p : Char → Bool) (cs : List Char) : Option (List Char) :=
  let groups := pieces '_' cs
  if groups.all fun g => !g.isEmpty && g.all p then some groups.flatten else none

/-- The sign of a number and what follows it. -/
def signed : List Char → Bool × List Char
  | '-' :: rest => (true, rest)
  | '+' :: rest => (false, rest)
  | cs => (false, cs)

/-- The value of a digit in a base up to sixteen. -/
def digitValue (c : Char) : Nat :=
  if isDigit c then c.toNat - '0'.toNat else c.toLower.toNat - 'a'.toNat + 10

/-- The value of some digits in a base up to sixteen. -/
def baseValue (base : Nat) (cs : List Char) : Nat :=
  cs.foldl (fun n c => base * n + digitValue c) 0

/-- Is this a hexadecimal digit? -/
def isHex (c : Char) : Bool := isDigit c || ('a' ≤ c && c ≤ 'f') || ('A' ≤ c && c ≤ 'F')

/-! ## Integers -/

/-- The digits of an unsigned decimal integer: no zero leads others. -/
def decimalDigits? (cs : List Char) : Option (List Char) :=
  match cs with
  | ['0'] => some cs
  | '0' :: _ => none
  | _ => grouped? isDigit cs

/-- An integer, if it fits 64 signed bits. -/
def bounded? (n : Int) : Option Int := if n = clamp64 n then some n else none

/-- Read an integer after the mark of its base. -/
def based? (base : Nat) (p : Char → Bool) (cs : List Char) : Option Int := do
  let digits ← grouped? p cs
  bounded? (baseValue base digits)

/-- Read an integer. -/
def integer? (cs : List Char) : Option Int :=
  match cs with
  | '0' :: 'x' :: rest => based? 16 isHex rest
  | '0' :: 'o' :: rest => based? 8 (fun c => '0' ≤ c && c ≤ '7') rest
  | '0' :: 'b' :: rest => based? 2 (fun c => c == '0' || c == '1') rest
  | _ => do
    let (negative, unsigned) := signed cs
    let size ← (decimalDigits? unsigned).map fun digits => (digitsValue digits : Int)
    bounded? (if negative then -size else size)

/-! ## Floats -/

/-- Text before and after the first character of a class. -/
def cutAt (p : Char → Bool) (cs : List Char) : List Char × Option (List Char) :=
  match cs.dropWhile (!p ·) with
  | [] => (cs, none)
  | _ :: rest => (cs.takeWhile (!p ·), some rest)

/-- The digits of an exponent with its sign, as they are written. -/
def exponentText? (cs : List Char) : Option (List Char) :=
  match cs with
  | '-' :: rest => (grouped? isDigit rest).map ('-' :: ·)
  | '+' :: rest => grouped? isDigit rest
  | _ => grouped? isDigit cs

/-- The plain text of an unsigned float: a fraction, an exponent, or both. -/
def floatText? (cs : List Char) : Option (List Char) := do
  let (mantissa, exponent) := cutAt (fun c => c == 'e' || c == 'E') cs
  let (whole, fraction) := cutAt (· == '.') mantissa
  let whole ← decimalDigits? whole
  match fraction, exponent with
  | none, none => none
  | some f, none => return whole ++ '.' :: (← grouped? isDigit f)
  | none, some e => return whole ++ 'e' :: (← exponentText? e)
  | some f, some e => return whole ++ '.' :: (← grouped? isDigit f) ++ 'e' :: (← exponentText? e)

/-- Is this a float?  One above all doubles is not, one below them is. -/
def isFloat (cs : List Char) : Bool :=
  let (negative, unsigned) := signed cs
  if unsigned = "inf".toList || unsigned = "nan".toList then true
  else match (floatText? unsigned).bind fun text => read? (String.ofList text) with
    | some x => negative || !x.isInf
    | none => false

/-! ## Dates and times -/

/-- The value of exactly `count` digits, if it lies between bounds. -/
def field? (count low high : Nat) (cs : List Char) : Option Nat :=
  let n := digitsValue cs
  if cs.length = count && cs.all isDigit && low ≤ n && n ≤ high then some n else none

/-- The number of days of a month. -/
def daysIn (year month : Nat) : Nat :=
  if month = 2 then
    if year % 4 = 0 && (year % 100 ≠ 0 || year % 400 = 0) then 29 else 28
  else if month ∈ [4, 6, 9, 11] then 30
  else 31

/-- Is this a day of the calendar? -/
def isDate (cs : List Char) : Bool :=
  match pieces '-' cs with
  | [y, m, d] =>
    match field? 4 0 9999 y, field? 2 1 12 m, field? 2 1 31 d with
    | some year, some month, some day => day ≤ daysIn year month
    | _, _, _ => false
  | _ => false

/-- Is this a number of seconds, a leap second included, maybe with a fraction? -/
def isSeconds (cs : List Char) : Bool :=
  let (whole, fraction) := cutAt (· == '.') cs
  (field? 2 0 60 whole).isSome && fraction.all isDigits

/-- Is this a time of day? -/
def isTime (cs : List Char) : Bool :=
  match pieces ':' cs with
  | [h, m, s] => (field? 2 0 23 h).isSome && (field? 2 0 59 m).isSome && isSeconds s
  | _ => false

/-- Is this a distance from universal time? -/
def isOffset (cs : List Char) : Bool :=
  match pieces ':' cs with
  | [h, m] => (field? 2 0 23 h).isSome && (field? 2 0 59 m).isSome
  | _ => false

/-- Is this a time of day, maybe with an offset? -/
def isZonedTime (cs : List Char) : Bool :=
  match cutAt (fun c => c == 'Z' || c == 'z' || c == '+' || c == '-') cs with
  | (time, none) => isTime time
  | (time, some offset) =>
    isTime time &&
      (match cs.drop time.length with
        | '+' :: _ | '-' :: _ => isOffset offset
        | _ => offset.isEmpty)

/-- Is this a date, a time, or both? -/
def isMoment (cs : List Char) : Bool :=
  match cutAt (fun c => c == 'T' || c == 't' || c == ' ') cs with
  | (date, some time) => isDate date && isZonedTime time
  | (_, none) => isDate cs || isTime cs

/-! ## Scalars -/

/-- Read all characters of a scalar. -/
def scalar? (cs : List Char) : Option Scalar :=
  if cs = "true".toList then some (.truth true)
  else if cs = "false".toList then some (.truth false)
  else match integer? cs with
    | some n => some (.integer n)
    | none => if isFloat cs then some .float else if isMoment cs then some .moment else none

/-- A character of a scalar. -/
def isScalarChar (c : Char) : Bool := c.isAlphanum || "+-_.:".toList.contains c

/-- Cut the characters of a scalar from a text.  A digit behind a blank behind a date starts its time. -/
def takeScalar (cs : List Char) : List Char × List Char :=
  let first := cs.takeWhile isScalarChar
  let rest := cs.dropWhile isScalarChar
  match rest with
  | ' ' :: d :: more =>
    if isDate first && isDigit d then
      (first ++ ' ' :: (d :: more).takeWhile isScalarChar, (d :: more).dropWhile isScalarChar)
    else (first, rest)
  | _ => (first, rest)

end LineScript.Toml
