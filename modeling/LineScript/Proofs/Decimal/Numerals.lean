/-
# How numbers are written

The number literals of a script are those of a regular expression, `-?[0-9]+(\.[0-9]+)?`.  `isLiteral` looks for them by
cutting the text at its sign and its point.

* `mem_digits`: the texts of `[0-9]+`;
* `isLiteral_iff`: `isLiteral` finds exactly the texts of the regular expression;
* `digitsValue_eq`: the value of digits is that of their row in base ten;
* `read?_of_isLiteral`: every number literal can be read, as digits behind an optional sign.
-/
import LineScript.Decimal.Read
import Mathlib.Computability.RegularExpressions
import Mathlib.Data.List.TakeWhile
import Mathlib.Data.Nat.Digits.Lemmas

namespace LineScript

open Text RegularExpression

/-! ## Cuts -/

namespace Text

/-- A text is cut at its first separator. -/
theorem cut_eq_some_iff {sep : Char} {cs before after : List Char} :
    cut sep cs = some (before, after) ↔ cs = before ++ sep :: after ∧ sep ∉ before := by
  constructor
  · intro h
    induction cs generalizing before with
    | nil => cases h
    | cons c rest ih =>
      rw [cut] at h
      split_ifs at h with hc
      · cases h
        exact ⟨by rw [hc]; rfl, List.not_mem_nil⟩
      · obtain ⟨⟨front, back⟩, hrest, hsame⟩ := Option.map_eq_some_iff.mp h
        cases hsame
        obtain ⟨hsplit, hfront⟩ := ih hrest
        exact ⟨congrArg (c :: ·) hsplit, fun hmem => (List.mem_cons.mp hmem).elim (Ne.symm hc) hfront⟩
  · rintro ⟨rfl, hbefore⟩
    exact cut_append hbefore after

/-- The ten digits. -/
def tenDigits : List Char := ['0', '1', '2', '3', '4', '5', '6', '7', '8', '9']

theorem isDigit_iff {c : Char} : isDigit c = true ↔ c ∈ tenDigits := by
  constructor
  · intro h
    rw [isDigit, Bool.and_eq_true, decide_eq_true_iff, decide_eq_true_iff] at h
    have hlow : 48 ≤ c.toNat := h.1
    have hhigh : c.toNat ≤ 57 := h.2
    rw [← Char.ofNat_toNat c]
    interval_cases c.toNat <;> decide
  · have hall : tenDigits.all isDigit = true := by decide
    exact List.all_eq_true.mp hall c

end Text

namespace Decimal

/-! ## Regular expressions -/

/-- `[0-9]` -/
def digit : RegularExpression Char :=
  char '0' + char '1' + char '2' + char '3' + char '4' + char '5' + char '6' + char '7' + char '8' + char '9'

/-- `[0-9]+` -/
def digits : RegularExpression Char := digit * digit.star

/-- `r?` -/
def maybe (r : RegularExpression Char) : RegularExpression Char := 1 + r

/-- `[0-9]+(\.[0-9]+)?` -/
def unsignedNumeral : RegularExpression Char := digits * maybe (char '.' * digits)

/-- `-?[0-9]+(\.[0-9]+)?` -/
def numeral : RegularExpression Char := maybe (char '-') * unsignedNumeral

section Matches

variable {r q : RegularExpression Char} {c : Char} {cs : List Char}

theorem mem_char_mul : cs ∈ (char c * r).matches' ↔ ∃ rest, cs = c :: rest ∧ rest ∈ r.matches' := by
  rw [matches'_mul, Language.mem_mul]
  constructor
  · rintro ⟨_, rfl, rest, hrest, rfl⟩
    exact ⟨rest, rfl, hrest⟩
  · rintro ⟨rest, rfl, hrest⟩
    exact ⟨[c], rfl, rest, hrest, rfl⟩

theorem mem_maybe_mul : cs ∈ (maybe (char c) * r).matches' ↔
    cs ∈ r.matches' ∨ ∃ rest, cs = c :: rest ∧ rest ∈ r.matches' := by
  rw [← mem_char_mul, matches'_mul, maybe, matches'_add, add_mul, matches'_epsilon, one_mul]
  rfl

theorem mem_mul_maybe : cs ∈ (r * maybe q).matches' ↔
    cs ∈ r.matches' ∨ ∃ front ∈ r.matches', ∃ back ∈ q.matches', front ++ back = cs := by
  rw [← Language.mem_mul, matches'_mul, maybe, matches'_add, mul_add, matches'_epsilon, mul_one]
  rfl

theorem mem_char : cs ∈ (char c).matches' ↔ cs = [c] := Iff.rfl

theorem mem_digit : cs ∈ digit.matches' ↔ ∃ c, isDigit c = true ∧ cs = [c] := by
  simp only [isDigit_iff, tenDigits, digit, matches'_add, Language.mem_add, mem_char, or_assoc]
  simp

theorem mem_star_digit : cs ∈ digit.star.matches' ↔ ∀ c ∈ cs, isDigit c = true := by
  rw [matches'_star, Language.mem_kstar]
  constructor
  · rintro ⟨parts, rfl, hparts⟩ c hc
    obtain ⟨part, hpart, hc⟩ := List.mem_flatten.mp hc
    obtain ⟨d, hd, rfl⟩ := mem_digit.mp (hparts part hpart)
    rwa [List.mem_singleton.mp hc]
  · intro h
    refine ⟨cs.map ([·]), (List.flatMap_singleton' cs).symm, fun part hpart => ?_⟩
    obtain ⟨c, hc, rfl⟩ := List.mem_map.mp hpart
    exact mem_digit.mpr ⟨c, h c hc, rfl⟩

/-- **The texts of `[0-9]+`** are the rows of digits that are not empty. -/
theorem mem_digits : cs ∈ digits.matches' ↔ isDigits cs = true := by
  rw [digits, matches'_mul, Language.mem_mul]
  cases cs with
  | nil =>
    refine ⟨?_, fun h => by cases h⟩
    rintro ⟨front, hfront, rest, -, hnil⟩
    obtain ⟨c, -, rfl⟩ := mem_digit.mp hfront
    cases hnil
  | cons c rest =>
    have hcons : isDigits (c :: rest) = true ↔ isDigit c = true ∧ ∀ d ∈ rest, isDigit d = true := by
      simp [isDigits]
    rw [hcons, ← mem_star_digit]
    constructor
    · rintro ⟨front, hfront, back, hback, hsame⟩
      obtain ⟨d, hd, rfl⟩ := mem_digit.mp hfront
      cases hsame
      exact ⟨hd, hback⟩
    · rintro ⟨hc, hrest⟩
      exact ⟨[c], mem_digit.mpr ⟨c, hc, rfl⟩, rest, hrest, rfl⟩

end Matches

/-! ## Number literals -/

section Literals

variable {cs : List Char} {s : String}

theorem isDigits_iff : isDigits cs = true ↔ cs ≠ [] ∧ ∀ c ∈ cs, isDigit c = true := by
  simp [isDigits]

/-- What is no digit is in no row of digits. -/
theorem not_mem_of_isDigits {c : Char} (h : isDigits cs = true) (hc : isDigit c = false) : c ∉ cs := by
  intro hmem
  rw [(isDigits_iff.mp h).2 c hmem] at hc
  cases hc

/-- A number without sign is cut at its point, if it has one. -/
theorem mem_unsignedNumeral : cs ∈ unsignedNumeral.matches' ↔ (match cut '.' cs with
    | some (whole, fraction) => isDigits whole && isDigits fraction
    | none => isDigits cs) = true := by
  rw [unsignedNumeral, mem_mul_maybe]
  have hpoint : isDigit '.' = false := by decide
  constructor
  · rintro (hwhole | ⟨whole, hwhole, back, hback, rfl⟩)
    · rw [mem_digits] at hwhole
      rw [cut_eq_none (not_mem_of_isDigits hwhole hpoint)]
      exact hwhole
    · obtain ⟨fraction, rfl, hfraction⟩ := mem_char_mul.mp hback
      rw [mem_digits] at hwhole hfraction
      rw [cut_append (not_mem_of_isDigits hwhole hpoint)]
      exact Bool.and_eq_true_iff.mpr ⟨hwhole, hfraction⟩
  · intro h
    cases hcut : cut '.' cs with
    | none =>
      rw [hcut] at h
      exact Or.inl (mem_digits.mpr h)
    | some parts =>
      rw [hcut] at h
      obtain ⟨hwhole, hfraction⟩ := Bool.and_eq_true_iff.mp h
      obtain ⟨rfl, -⟩ := cut_eq_some_iff.mp hcut
      exact Or.inr ⟨_, mem_digits.mpr hwhole, _, mem_char_mul.mpr ⟨_, rfl, mem_digits.mpr hfraction⟩, rfl⟩

/-- A number without sign begins with a digit. -/
theorem exists_digit_of_mem_unsignedNumeral (h : cs ∈ unsignedNumeral.matches') :
    ∃ c rest, cs = c :: rest ∧ isDigit c = true := by
  have hfront : ∀ front, isDigits front = true → ∀ back, ∃ c rest, front ++ back = c :: rest ∧ isDigit c = true := by
    intro front hfront back
    cases front with
    | nil => cases hfront
    | cons c rest => exact ⟨c, rest ++ back, rfl, (isDigits_iff.mp hfront).2 c List.mem_cons_self⟩
  rcases mem_mul_maybe.mp h with hwhole | ⟨whole, hwhole, back, -, rfl⟩
  · simpa using hfront cs (mem_digits.mp hwhole) []
  · exact hfront whole (mem_digits.mp hwhole) back

/-- **The number literals are the texts of their regular expression.** -/
theorem isLiteral_iff : isLiteral s = true ↔ s.toList ∈ numeral.matches' := by
  -- The sign is cut off first.
  obtain ⟨cs, hcs, hsign⟩ : ∃ cs, (isLiteral s = true ↔ cs ∈ unsignedNumeral.matches') ∧
      (s.toList = '-' :: cs ∨ (∀ rest, s.toList ≠ '-' :: rest) ∧ cs = s.toList) := by
    refine ⟨_, mem_unsignedNumeral.symm, ?_⟩
    split
    · rename_i rest hsign
      exact Or.inl hsign
    · rename_i hbare
      exact Or.inr ⟨hbare, rfl⟩
  rw [hcs, numeral, mem_maybe_mul]
  rcases hsign with hsign | ⟨hbare, rfl⟩
  · -- Behind a sign there must be a number, and the sign begins none.
    rw [hsign]
    constructor
    · intro h
      exact Or.inr ⟨cs, rfl, h⟩
    · rintro (h | ⟨rest, hrest, h⟩)
      · obtain ⟨c, _, hsame, hc⟩ := exists_digit_of_mem_unsignedNumeral h
        cases hsame
        cases hc
      · cases hrest
        exact h
  · constructor
    · intro h
      exact Or.inl h
    · rintro (h | ⟨rest, hrest, -⟩)
      · exact h
      · exact absurd hrest (hbare rest)

/-- Besides digits there is at most a point in a number without sign. -/
theorem isDigit_or_point_of_mem (h : cs ∈ unsignedNumeral.matches') {c : Char} (hc : c ∈ cs) :
    (isDigit c || c == '.') = true := by
  have hdigits : ∀ ds, ds ∈ digits.matches' → c ∈ ds → (isDigit c || c == '.') = true := by
    intro ds hds hmem
    rw [(isDigits_iff.mp (mem_digits.mp hds)).2 c hmem]
    rfl
  rcases mem_mul_maybe.mp h with hwhole | ⟨whole, hwhole, back, hback, rfl⟩
  · exact hdigits cs hwhole hc
  · obtain ⟨fraction, rfl, hfraction⟩ := mem_char_mul.mp hback
    rcases List.mem_append.mp hc with hc | hc
    · exact hdigits whole hwhole hc
    · rcases List.mem_cons.mp hc with rfl | hc
      · rfl
      · exact hdigits fraction hfraction hc

theorem exists_unsigned?_of_mem (h : cs ∈ unsignedNumeral.matches') : ∃ x, unsigned? cs = some x := by
  have htake : cs.takeWhile (fun c => isDigit c || c == '.') = cs :=
    List.takeWhile_eq_self_iff.mpr fun c hc => isDigit_or_point_of_mem h hc
  have hdrop : cs.dropWhile (fun c => isDigit c || c == '.') = [] :=
    List.dropWhile_eq_nil_iff.mpr fun c hc => isDigit_or_point_of_mem h hc
  have hparts : ((((cut '.' cs).getD (cs, [])).1 ++ ((cut '.' cs).getD (cs, [])).2).all isDigit &&
      !(((cut '.' cs).getD (cs, [])).1 ++ ((cut '.' cs).getD (cs, [])).2).isEmpty) = true := by
    rw [mem_unsignedNumeral] at h
    cases hcut : cut '.' cs with
    | none =>
      rw [hcut] at h
      simpa [isDigits, Bool.and_comm] using h
    | some parts =>
      rw [hcut] at h
      simp [isDigits] at h ⊢
      tauto
  unfold unsigned?
  simp only [htake, hdrop, hparts]
  exact ⟨_, rfl⟩

/-- A number without sign is not one of the names for special values, which begin with a letter. -/
theorem map_toLower_ne {name : List Char} (h : cs ∈ unsignedNumeral.matches')
    (hname : name.head?.any isDigit = false) : cs.map Char.toLower ≠ name := by
  obtain ⟨c, rest, rfl, hc⟩ := exists_digit_of_mem_unsignedNumeral h
  have hdigits : tenDigits.all (fun d => d.toLower == d) = true := by decide
  have hlower : c.toLower = c := eq_of_beq (List.all_eq_true.mp hdigits c (isDigit_iff.mp hc))
  rintro rfl
  rw [List.map_cons, hlower, List.head?_cons, Option.any_some, hc] at hname
  cases hname

/-- **A number literal is read as a number without sign**, or as the opposite of one. -/
theorem read?_of_isLiteral (h : isLiteral s = true) :
    ∃ cs x, unsigned? cs = some x ∧ (read? s = some x ∨ read? s = some (-x)) := by
  have hspecial : ∀ cs ∈ unsignedNumeral.matches',
      (if cs.map Char.toLower = "inf".toList || cs.map Char.toLower = "infinity".toList then some (1.0 / 0.0)
        else if cs.map Char.toLower = "nan".toList then some (0.0 / 0.0) else unsigned? cs) = unsigned? cs := by
    intro cs hcs
    have hinf : cs.map Char.toLower ≠ "inf".toList := map_toLower_ne hcs (by decide)
    have hinfinity : cs.map Char.toLower ≠ "infinity".toList := map_toLower_ne hcs (by decide)
    have hnan : cs.map Char.toLower ≠ "nan".toList := map_toLower_ne hcs (by decide)
    simp only [hinf, hinfinity, hnan, decide_false, Bool.or_self, Bool.false_eq_true, if_false]
  rw [isLiteral_iff, numeral, mem_maybe_mul] at h
  unfold read?
  dsimp only
  rcases h with hbare | ⟨rest, hsign, hrest⟩
  · obtain ⟨x, hx⟩ := exists_unsigned?_of_mem hbare
    obtain ⟨c, rest, hchars, hc⟩ := exists_digit_of_mem_unsignedNumeral hbare
    refine ⟨s.toList, x, hx, Or.inl ?_⟩
    split
    · rename_i hminus
      cases hminus.symm.trans hchars
      cases hc
    · rename_i hplus
      cases hplus.symm.trans hchars
      cases hc
    · exact (hspecial s.toList hbare).trans hx
  · obtain ⟨x, hx⟩ := exists_unsigned?_of_mem hrest
    refine ⟨rest, x, hx, Or.inr ?_⟩
    rw [hsign]
    exact congrArg (Option.map (- ·)) ((hspecial rest hrest).trans hx)

/-- Every number literal can be read. -/
theorem exists_read?_of_isLiteral (h : isLiteral s = true) : ∃ x, read? s = some x := by
  obtain ⟨-, x, -, hx | hx⟩ := read?_of_isLiteral h
  · exact ⟨x, hx⟩
  · exact ⟨-x, hx⟩

/-- **The value of digits** is that of their row in base ten, most significant first. -/
theorem digitsValue_eq (cs : List Char) :
    digitsValue cs = Nat.ofDigits 10 (cs.reverse.map fun c => c.toNat - '0'.toNat) := by
  rw [digitsValue, List.foldl_eq_foldr_reverse]
  induction cs.reverse with
  | nil => rfl
  | cons c rest ih =>
    rw [List.foldr_cons, ih, List.map_cons, Nat.ofDigits_cons]
    exact Nat.add_comm _ _

end Literals

end Decimal

end LineScript
