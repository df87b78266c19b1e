/-
# What doubles stand for

A finite double stands for a rational number (`rational?`), which is read off its unpacked form.  `parts?` takes the
bits apart by hand instead, and `toInt?` looks for whole numbers among the parts, with natural numbers only.

* `parts?_eq`: the parts of a double are those of its unpacked form;
* `Parts.whole?_eq_some`: a size is whole when the dyadic fraction is a natural number;
* `toInt?_eq_some`: the main statement, by which `toInt?` finds exactly the doubles that stand for integers;
* `Value.integer?_range`: the whole number of a value has 64 signed bits.
-/
import LineScript.Value
import Mathlib.Algebra.Order.Field.Power
import Mathlib.Data.Nat.Cast.Field
import Mathlib.Data.Rat.Cast.Order
import Mathlib.Tactic.SplitIfs

namespace LineScript.Decimal

open Float.Model Float.Model.UnpackedFloat

/-! ## Unpacked doubles -/

/-- The rational number that a double stands for; `none` for infinities and NaN. -/
def rational? (x : Float) : Option ℚ :=
  match x.toModel.unpack with
  | .zero _ => some 0
  | .finite sign mantissa exponent _ => some (sign.apply mantissa * 2 ^ exponent)
  | .infinity _ | .notANumber => none

/-- Is this the sign of negative numbers? -/
def isNegative : Sign → Bool
  | .negative => true
  | .positive => false

section Fields

variable (b : BitVec Format.binary64.numBits)

theorem toNat_unpackMantissa : (unpackMantissa b).toNat = b.toNat % 2 ^ 52 := by
  unfold unpackMantissa
  simp

theorem toNat_unpackExponent : (unpackExponent b).toNat = (b.toNat >>> 52) % 2048 := by
  unfold unpackExponent
  simp

theorem toNat_unpackSign : (unpackSign b).toNat = b.toNat >>> 63 := by
  have hlt : b.toNat < 2 ^ 64 := b.isLt
  unfold unpackSign
  simp only [BitVec.toNat_cast, BitVec.extractLsb_toNat]
  omega

theorem isNegative_unpackSign : isNegative (.ofBitVec (unpackSign b)) = decide (b.toNat >>> 63 = 1) := by
  have hlt : b.toNat < 2 ^ 64 := b.isLt
  have hpositive : unpackSign b = 0#1 ↔ b.toNat >>> 63 = 0 := by
    rw [← toNat_unpackSign, ← BitVec.toNat_inj]
    rfl
  unfold Sign.ofBitVec
  by_cases h : b.toNat >>> 63 = 0
  · rw [if_pos (hpositive.mpr h), h]
    rfl
  · have hone : b.toNat >>> 63 = 1 := by omega
    rw [if_neg (h ∘ hpositive.mp), hone]
    rfl

/-- A normal significand has one more bit than its field. -/
theorem toNat_significand : (1#1 ++ unpackMantissa b).toNat = b.toNat % 2 ^ 52 + 2 ^ 52 := by
  have hlt : b.toNat % 2 ^ 52 < 2 ^ 52 := Nat.mod_lt _ (by decide)
  rw [BitVec.toNat_append, toNat_unpackMantissa, ← Nat.shiftLeft_add_eq_or_of_lt hlt, Nat.add_comm]
  rfl

end Fields

/-! ## Parts -/

/-- The parts of an unpacked double. -/
def unpackedParts? : UnpackedFloat → Option Parts
  | .zero sign => some ⟨isNegative sign, 0, -1074⟩
  | .finite sign mantissa exponent _ => some ⟨isNegative sign, mantissa, exponent⟩
  | .infinity _ | .notANumber => none

/-- **The parts of a double are those of its unpacked form.** -/
theorem parts?_eq (x : Float) : parts? x = unpackedParts? x.toModel.unpack := by
  have hword : x.toBits.toNat = x.toModel.toBits.toBitVec.toNat := rfl
  unfold parts? Float.Model.unpack UnpackedFloat.unpack
  rw [hword]
  generalize x.toModel.toBits.toBitVec = word
  let b : BitVec Format.binary64.numBits := word
  have hexponent := toNat_unpackExponent b
  have hmantissa := toNat_unpackMantissa b
  have hfull : unpackExponent b = -1#11 ↔ (b.toNat >>> 52) % 2048 = 2047 := by
    rw [← hexponent, ← BitVec.toNat_inj]
    rfl
  have hlow : unpackExponent b = 0#11 ↔ (b.toNat >>> 52) % 2048 = 0 := by
    rw [← hexponent, ← BitVec.toNat_inj]
    rfl
  have hempty : unpackMantissa b = 0#52 ↔ b.toNat % 2 ^ 52 = 0 := by
    rw [← hmantissa, ← BitVec.toNat_inj]
    rfl
  dsimp only [pow2, Nat.pow_eq]
  rw [← isNegative_unpackSign]
  -- The exponent has all bits set for infinities and NaN, and none for zeros and subnormal numbers.
  by_cases hspecial : unpackExponent b = -1#11
  · rw [if_pos (hfull.mp hspecial), if_pos hspecial]
    by_cases hinfinite : unpackMantissa b = 0#52
    · rw [if_pos hinfinite]
      rfl
    · rw [if_neg hinfinite]
      rfl
  · rw [if_neg (mt hfull.mpr hspecial), if_neg hspecial]
    by_cases hsubnormal : unpackExponent b = 0#11
    · rw [if_pos (hlow.mp hsubnormal), if_pos (hlow.mp hsubnormal), if_pos hsubnormal]
      by_cases hzero : unpackMantissa b = 0#52
      · rw [dif_pos hzero, hempty.mp hzero]
        rfl
      · rw [dif_neg hzero, hexponent, hlow.mp hsubnormal, ← hmantissa]
        rfl
    · rw [if_neg (mt hlow.mpr hsubnormal), if_neg (mt hlow.mpr hsubnormal), if_neg hsubnormal, ← toNat_significand,
        ← hexponent]
      rfl

/-- The size of a dyadic fraction. -/
def Parts.size (p : Parts) : ℚ := p.significand * 2 ^ p.exponent

/-- The number that a dyadic fraction is. -/
def Parts.value (p : Parts) : ℚ := if p.negative then -p.size else p.size

theorem Parts.size_nonneg (p : Parts) : 0 ≤ p.size :=
  mul_nonneg (Nat.cast_nonneg _) (zpow_nonneg (by decide) _)

/-- The number that a double stands for is that of its parts. -/
theorem rational?_eq (x : Float) : rational? x = (parts? x).map Parts.value := by
  rw [rational?, parts?_eq]
  cases x.toModel.unpack with
  | notANumber => rfl
  | infinity sign => rfl
  | zero sign =>
    show some (0 : ℚ) = some (Parts.value ⟨isNegative sign, 0, -1074⟩)
    cases sign <;> simp [Parts.value, Parts.size, isNegative]
  | finite sign mantissa exponent hpos =>
    show some (sign.apply mantissa * 2 ^ exponent : ℚ) = some (Parts.value ⟨isNegative sign, mantissa, exponent⟩)
    cases sign <;> simp [Parts.value, Parts.size, isNegative, Sign.apply]

/-- A quotient of natural numbers is a natural number when nothing is left over. -/
theorem div_eq_natCast {m k n : ℕ} (hk : 0 < k) : (m : ℚ) / k = n ↔ m % k = 0 ∧ m / k = n := by
  have hk' : (k : ℚ) ≠ 0 := Nat.cast_ne_zero.mpr hk.ne'
  rw [div_eq_iff hk', ← Nat.cast_mul, Nat.cast_inj]
  constructor
  · rintro rfl
    exact ⟨Nat.mul_mod_left n k, Nat.mul_div_cancel n hk⟩
  · rintro ⟨hleft, rfl⟩
    exact (Nat.div_mul_cancel (Nat.dvd_of_mod_eq_zero hleft)).symm

/-- **A size is whole when it is a natural number.** -/
theorem Parts.whole?_eq_some {p : Parts} {n : ℕ} : p.whole? = some n ↔ p.size = n := by
  unfold whole? size
  split_ifs with hexponent
  · -- A power of two with a natural exponent is a natural number itself.
    obtain ⟨e, he⟩ := Int.eq_ofNat_of_zero_le hexponent
    rw [he, Option.some_inj, Int.toNat_natCast, zpow_natCast]
    show p.significand * 2 ^ e = n ↔ _
    exact_mod_cast Iff.rfl
  · obtain ⟨e, he⟩ := Int.eq_ofNat_of_zero_le (Int.neg_nonneg.mpr (Int.le_of_lt (Int.not_le.mp hexponent)))
    have hsize : (p.significand : ℚ) * 2 ^ p.exponent = p.significand / (2 ^ e : ℕ) := by
      rw [← neg_neg p.exponent, he, zpow_neg, zpow_natCast, Nat.cast_pow, div_eq_mul_inv]
      rfl
    rw [hsize, he, div_eq_natCast (Nat.two_pow_pos e), Int.toNat_natCast]
    show (if p.significand % 2 ^ e = 0 then some (p.significand / 2 ^ e) else none) = some n ↔ _
    split_ifs with hrest
    · simp [hrest]
    · simp [hrest]

/-! ## Integers -/

/-- **A double is whole exactly when it stands for an integer**, and then it is this integer. -/
theorem toInt?_eq_some {x : Float} {z : ℤ} : toInt? x = some z ↔ rational? x = some (z : ℚ) := by
  rw [toInt?, rational?_eq]
  cases parts? x with
  | none => simp
  | some p =>
    have hsize := p.size_nonneg
    show (p.whole?.bind fun size => some (if p.negative then -(size : ℤ) else size)) = some z ↔
      some p.value = some (z : ℚ)
    rw [Option.bind_eq_some_iff, Option.some_inj, Parts.value]
    simp only [Parts.whole?_eq_some, Option.some_inj]
    split_ifs with hsign
    · constructor
      · rintro ⟨n, hn, rfl⟩
        rw [hn]
        push_cast
        rfl
      · intro hz
        have hneg : p.size = ((-z : ℤ) : ℚ) := by rw [Int.cast_neg, ← hz, neg_neg]
        rw [hneg] at hsize ⊢
        obtain ⟨n, hn⟩ := Int.eq_ofNat_of_zero_le (Int.cast_nonneg_iff.mp hsize)
        exact ⟨n, by rw [hn]; rfl, by omega⟩
    · constructor
      · rintro ⟨n, hn, rfl⟩
        rw [hn]
        rfl
      · intro hz
        rw [hz] at hsize ⊢
        obtain ⟨n, hn⟩ := Int.eq_ofNat_of_zero_le (Int.cast_nonneg_iff.mp hsize)
        exact ⟨n, by rw [hn]; rfl, hn.symm⟩

end LineScript.Decimal

namespace LineScript.Value

open LineScript.Decimal

/-- Only a number is whole. -/
theorem tag_of_integer? {v : Value} {n : ℤ} (h : v.integer? = some n) : v.tag = .number := by
  cases v with
  | number x => rfl
  | text _ _ | word _ _ | boolean _ | group _ | object _ | relpos _ => cases h

/-- Whole numbers are moved into the range of 64 signed bits. -/
theorem integer?_range {v : Value} {n : ℤ} (h : v.integer? = some n) : -2 ^ 63 ≤ n ∧ n < 2 ^ 63 := by
  obtain ⟨x, -, h⟩ := Option.bind_eq_some_iff.mp h
  obtain ⟨i, -, h⟩ := Option.bind_eq_some_iff.mp h
  cases h
  unfold clamp64
  omega

end LineScript.Value
