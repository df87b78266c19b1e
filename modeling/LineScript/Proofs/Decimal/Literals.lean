/-
# No literal is a NaN

A NaN is the one double that differs from itself, so a value with a NaN inside is not even equal to itself.  No literal
is one: the double nearest to a decimal number comes from roundings, from products with a power of ten and from quotients
by one, and no such factor or divisor is an infinity or a zero.

* `isNaN_ofModel_pack`: packing makes no NaN;
* `mul_ne_notANumber`, `div_ne_notANumber`: nor do a factor and a divisor that are finite and not zero (`isProper`), and
  the powers of ten are of this kind (`isProper_powerOfTen`);
* `isNaN_ofScientific`: the double nearest to a decimal number is no NaN;
* `isNaN_literalNumber`: the main statement.
-/
import Mathlib
import LineScript.Literal
import LineScript.Proofs.Decimal.Numerals

namespace LineScript.Decimal

open Float.Model Float.Model.UnpackedFloat

/-! ## Packing -/

/-- **Packing makes no NaN** of an unpacked double that is none. -/
theorem isNaN_ofModel_pack {u : UnpackedFloat} (h : u ≠ .notANumber) :
    (Float.ofModel (Float.Model.pack u)).isNaN = false := by
  rw [← Bool.not_eq_true]
  show ¬ (unpack Format.binary64 (UnpackedFloat.pack Format.binary64 u)).isNaN = true
  rw [isNaN_iff, unpack_eq_notANumber_iff_of_valid valid_pack]
  have hinfinity : ∀ sign, packedInfinity Format.binary64 sign ≠ packedNaN Format.binary64 := by
    intro sign
    cases sign <;> decide
  -- The exponent of the packed NaN has all bits set.
  have hexponent : ∀ {sign e m}, e ≠ -1#11 → packComponents Format.binary64 sign e m ≠ packedNaN Format.binary64 := by
    intro sign e m he hsame
    have hfield := congrArg unpackExponent hsame
    rw [packedNaN, unpackExponent_packComponents, unpackExponent_packComponents] at hfield
    exact he hfield
  fun_cases UnpackedFloat.pack Format.binary64 u with
  | case1 => exact absurd rfl h
  | case2 sign => exact hinfinity sign
  | case3 sign => exact hexponent (by decide)
  | case4 sign m e hm biased hlarge => exact hinfinity sign
  | case5 sign m e hm bits biased hsmall hnormal =>
    refine hexponent fun hfull => ?_
    have hones : biased % 2048 = 2047 := by simpa using congrArg BitVec.toNat hfull
    replace hsmall : ¬ 2048 ≤ biased + 1 := hsmall
    omega
  | case6 sign m e hm bits biased hsmall hsubnormal => exact hexponent (by decide)

theorem unpack_ne_notANumber {x : Float} (h : x.isNaN = false) : x.toModel.unpack ≠ .notANumber := by
  intro hnan
  have htrue : x.isNaN = true := isNaN_iff.mpr hnan
  cases h.symm.trans htrue

/-! ## Arithmetic -/

section Arithmetic

variable {spec : Format} {u v : UnpackedFloat}

theorem roundWithAccuracy_ne_notANumber (sign : Sign) (m : ℕ) (e : ℤ) (accuracy : Accuracy) :
    roundWithAccuracy spec sign m e accuracy ≠ .notANumber := by
  unfold roundWithAccuracy
  dsimp only
  split_ifs <;> nofun

theorem normalize_ne_notANumber (m e : ℤ) (sign : Sign) : UnpackedFloat.normalize spec m e sign ≠ .notANumber := by
  unfold UnpackedFloat.normalize
  split
  · exact roundWithAccuracy_ne_notANumber _ _ _ _
  · nofun
  · exact roundWithAccuracy_ne_notANumber _ _ _ _

/-- Is an unpacked double finite and not zero? -/
def isProper : UnpackedFloat → Bool
  | .finite .. => true
  | _ => false

/-- A product with a proper factor is no NaN. -/
theorem mul_ne_notANumber (hu : u ≠ .notANumber) (hv : isProper v = true) :
    UnpackedFloat.mul spec u v ≠ .notANumber := by
  cases v with
  | finite sign m e hm =>
    cases u with
    | notANumber => exact absurd rfl hu
    | infinity _ | zero _ => nofun
    | finite _ _ _ _ => exact roundWithAccuracy_ne_notANumber _ _ _ _
  | notANumber | infinity _ | zero _ => cases hv

/-- A quotient by a proper divisor is no NaN. -/
theorem div_ne_notANumber (hu : u ≠ .notANumber) (hv : isProper v = true) :
    UnpackedFloat.div spec u v ≠ .notANumber := by
  cases v with
  | finite sign m e hm =>
    cases u with
    | notANumber => exact absurd rfl hu
    | infinity _ | zero _ => nofun
    | finite _ _ _ _ => exact roundWithAccuracy_ne_notANumber _ _ _ _
  | notANumber | infinity _ | zero _ => cases hv

theorem ofScientific_ne_notANumber (m : ℕ) (e : ℤ) : UnpackedFloat.ofScientific spec m e ≠ .notANumber := by
  have hfinite : ∀ {sign m e hm}, UnpackedFloat.finite sign m e hm ≠ .notANumber := nofun
  unfold UnpackedFloat.ofScientific
  split_ifs
  · nofun
  · nofun
  · nofun
  · exact mul_ne_notANumber hfinite rfl
  · exact div_ne_notANumber hfinite rfl

end Arithmetic

/-! ## Decimal numbers -/

/-- The powers of ten that are kept in a table are proper. -/
theorem isProper_powerOfTen {e : ℕ} (h : e < Float.exactlyRepresentablePowersOfTen.size) :
    isProper Float.exactlyRepresentablePowersOfTen[e].toModel.unpack = true := by
  have htable : ∀ x ∈ Float.exactlyRepresentablePowersOfTen.toList, isProper x.toModel.unpack = true := by decide
  exact htable _ (by simp)

theorem isNaN_toFloat (n : UInt64) : n.toFloat.isNaN = false :=
  isNaN_ofModel_pack (normalize_ne_notANumber _ _ _)

/-- **The double nearest to a decimal number is no NaN.** -/
theorem isNaN_ofScientific (m : ℕ) (s : Bool) (e : ℕ) : (Float.ofScientific m s e).isNaN = false := by
  unfold Float.ofScientific
  split
  · -- Few digits and a small exponent: one product with a power of ten, or one quotient.
    have hdigits := unpack_ne_notANumber (isNaN_toFloat m.toUInt64)
    cases s with
    | true => exact isNaN_ofModel_pack (div_ne_notANumber hdigits (isProper_powerOfTen _))
    | false => exact isNaN_ofModel_pack (mul_ne_notANumber hdigits (isProper_powerOfTen _))
  · exact isNaN_ofModel_pack (ofScientific_ne_notANumber _ _)

theorem isNaN_nearest (digits : ℕ) (e : ℤ) : (nearest digits e).isNaN = false := by
  unfold nearest
  split_ifs
  · exact isNaN_ofScientific 0 true 1
  · exact isNaN_ofScientific _ _ _
  · exact isNaN_ofScientific _ _ _

theorem isNaN_neg {x : Float} (h : x.isNaN = false) : (-x).isNaN = false := by
  refine isNaN_ofModel_pack ?_
  cases hx : x.toModel.unpack with
  | notANumber => exact absurd hx (unpack_ne_notANumber h)
  | infinity _ | zero _ | finite _ _ _ _ => nofun

/-! ## Literals -/

/-- What is read without sign is the double nearest to some decimal number. -/
theorem exists_nearest_of_unsigned? {cs : List Char} {x : Float} (h : unsigned? cs = some x) :
    ∃ digits e, nearest digits e = x := by
  have hbind : ∀ {scale? : Option ℤ} {p : Prop} [Decidable p] {digits : ℕ} {e : ℤ → ℤ},
      (scale?.bind fun scale => (guard p : Option Unit).bind fun _ => pure (nearest digits (e scale))) = some x →
        ∃ digits e, nearest digits e = x := by
    intro scale? p _ digits e hread
    obtain ⟨scale, -, hread⟩ := Option.bind_eq_some_iff.mp hread
    obtain ⟨-, -, hread⟩ := Option.bind_eq_some_iff.mp hread
    exact ⟨digits, e scale, Option.some.inj hread⟩
  unfold unsigned? at h
  dsimp only [Option.bind_eq_bind] at h
  -- There is no exponent, or one behind its mark, or something else that cannot be read.
  split at h
  · exact hbind h
  · split at h
    · exact hbind h
    · cases h

/-- **No number literal is a NaN.** -/
theorem isNaN_literalNumber {s : String} (h : isLiteral s = true) : (literalNumber s).isNaN = false := by
  obtain ⟨cs, x, hx, hread⟩ := read?_of_isLiteral h
  obtain ⟨digits, e, rfl⟩ := exists_nearest_of_unsigned? hx
  have hnumber := isNaN_nearest digits e
  rcases hread with hread | hread
  · rw [literalNumber, hread]
    exact hnumber
  · rw [literalNumber, hread]
    exact isNaN_neg hnumber

end LineScript.Decimal
