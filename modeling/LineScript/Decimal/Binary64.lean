/-
# Binary64 numbers as exact dyadic fractions

A finite double is `± significand · 2 ^ exponent` with natural significand.  `parts?` takes a double
apart, and what is computed here from the parts (`toInt?`, `remainder`) is computed exactly.
-/
namespace LineScript.Decimal

/-- A power of two. -/
def pow2 (n : Nat) : Nat := Nat.pow 2 n

/-- A power of ten. -/
def pow10 (n : Nat) : Nat := Nat.pow 10 n

/-- A finite double as sign, natural significand and binary exponent. -/
structure Parts where
  negative : Bool
  significand : Nat
  exponent : Int
  deriving Repr, DecidableEq

/-- The parts of a finite double; `none` for infinities and NaN. -/
def parts? (x : Float) : Option Parts :=
  let bits := x.toBits.toNat
  let field := (bits >>> 52) % 2048
  let fraction := bits % pow2 52
  if field = 2047 then none
  else some {
    negative := bits >>> 63 = 1
    significand := if field = 0 then fraction else fraction + pow2 52
    exponent := if field = 0 then -1074 else (field : Int) - 1075 }

/-- The size of a whole dyadic fraction, `none` when it has a fractional part. -/
def Parts.whole? (p : Parts) : Option Nat :=
  if 0 ≤ p.exponent then some (p.significand * pow2 p.exponent.toNat)
  else
    let scale := pow2 (-p.exponent).toNat
    if p.significand % scale = 0 then some (p.significand / scale) else none

/-- The integer that a double stands for; `none` for fractions, infinities and NaN. -/
def toInt? (x : Float) : Option Int := do
  let p ← parts? x
  let size ← p.whole?
  return if p.negative then -(size : Int) else size

/-- The nearest integer of 64 signed bits. -/
def clamp64 (n : Int) : Int := max (-0x8000000000000000) (min n 0x7FFFFFFFFFFFFFFF)

/-- The double `± n · 2 ^ e`, for arguments that have one. -/
def ofParts (negative : Bool) (n : Nat) (e : Int) : Float :=
  let size := (Float.ofNat n).scaleB e
  if negative then -size else size

/-- The remainder of a division that truncates towards zero: it has the sign of `x` and is smaller in
size than `y`.  A zero divisor, an infinite dividend and NaN give NaN. -/
def remainder (x y : Float) : Float :=
  match parts? x, parts? y with
  | some p, some q =>
    if q.significand = 0 then 0.0 / 0.0
    else
      let e := min p.exponent q.exponent
      let a := p.significand * pow2 (p.exponent - e).toNat
      let b := q.significand * pow2 (q.exponent - e).toNat
      ofParts p.negative (a % b) e
  | some _, none => if y.isNaN then y else x
  | none, _ => 0.0 / 0.0

end LineScript.Decimal
