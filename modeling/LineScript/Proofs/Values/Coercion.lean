/-
# Coercion by the table of rules

A bare text becomes a value by the first rule that applies: truth values, numbers, groups written with bars, relative
positions, the latest plain type that accepts the text, and last the identifier.  Here each rule says for itself which
texts it is about, with regular expressions, with the pieces between bars, and with the order in which types were
registered.  No text belongs to two of the first four rules, so only the last two need to know what came before.

* `barGroup?_eq_some`, `relpos?_eq_some`, `find?_reverse_eq_some`: the tests that are made are those of the rules;
* `coerce_of_boolean` to `coerce_of_not_builtin`: what each rule gives;
* `coerce_eq_iff`: the value of a text is the one that the table gives, some rule being about every text;
* `rule_boolean_iff` to `rule_word_iff`: what a value says about its text;
* `coercion_follows_rules`: the main statement.
-/
import LineScript.Literal
import LineScript.Proofs.Decimal.Numerals
import LineScript.Proofs.Text.Blank

namespace LineScript

open Text Decimal RegularExpression

/-! ## Groups -/

/-- A group written with bars: there is a bar, and between bars nothing is empty. -/
structure IsBarGroup (s : String) : Prop where
  bar : '|' ∈ s.toList
  filled : ∀ piece ∈ s.toList.splitOn '|', piece ≠ []

variable {types : List WordType} {s : String}

theorem barGroup?_eq_some {items : List String} :
    barGroup? s = some items ↔ IsBarGroup s ∧ items = (s.toList.splitOn '|').map String.ofList := by
  have hcount : 1 < (pieces '|' s.toList).length ↔ '|' ∈ s.toList := by
    rw [length_pieces, ← List.count_pos_iff]
    omega
  have hgroup : (1 < (pieces '|' s.toList).length && (pieces '|' s.toList).all (!·.isEmpty)) = true ↔ IsBarGroup s := by
    rw [Bool.and_eq_true, decide_eq_true_iff, hcount, pieces_eq_splitOn]
    constructor
    · rintro ⟨hbar, hfilled⟩
      exact ⟨hbar, by simpa using hfilled⟩
    · rintro ⟨hbar, hfilled⟩
      exact ⟨hbar, by simpa using hfilled⟩
  show (if 1 < (pieces '|' s.toList).length && (pieces '|' s.toList).all (!·.isEmpty) then
    some ((pieces '|' s.toList).map String.ofList) else none) = some items ↔ _
  split_ifs with h
  · rw [hgroup] at h
    rw [pieces_eq_splitOn, Option.some_inj]
    exact ⟨fun hitems => ⟨h, hitems.symm⟩, fun hitems => hitems.2.symm⟩
  · rw [hgroup] at h
    exact ⟨nofun, fun hitems => absurd hitems.1 h⟩

/-! ## Relative positions -/

/-- `~-?[0-9]+` -/
def relative : RegularExpression Char := char '~' * (maybe (char '-') * digits)

/-- The natural number that a row of digits writes, most significant first. -/
def rowValue (ds : List Char) : ℕ := Nat.ofDigits 10 (ds.reverse.map fun c => c.toNat - '0'.toNat)

/-- The integer that digits write behind an optional sign. -/
def signedValue : List Char → ℤ
  | '-' :: ds => -(rowValue ds : ℤ)
  | ds => rowValue ds

/-- A relative position whose offset has 64 signed bits. -/
structure WritesOffset (s : String) (offset : ℤ) : Prop where
  form : s.toList ∈ relative.matches'
  value : offset = signedValue s.toList.tail
  fits : -2 ^ 63 ≤ offset ∧ offset < 2 ^ 63

/-- A sign begins no row of digits. -/
theorem not_isDigits_signed (ds : List Char) : ¬ isDigits ('-' :: ds) = true := by
  intro h
  cases (isDigits_iff.mp h).2 '-' List.mem_cons_self

theorem signedValue_of_digits {ds : List Char} (h : isDigits ds = true) : signedValue ds = digitsValue ds := by
  rw [digitsValue_eq]
  unfold signedValue
  split
  · rename_i rest
    exact absurd h (not_isDigits_signed rest)
  · rfl

/-- A relative position is a tilde, perhaps a sign, and digits. -/
theorem writesOffset_iff {offset : ℤ} : WritesOffset s offset ↔ (∃ ds, isDigits ds = true ∧
    (s.toList = '~' :: ds ∧ offset = digitsValue ds ∨ s.toList = '~' :: '-' :: ds ∧ offset = -(digitsValue ds : ℤ))) ∧
      -2 ^ 63 ≤ offset ∧ offset < 2 ^ 63 := by
  have hform : s.toList ∈ relative.matches' ↔
      ∃ rest, s.toList = '~' :: rest ∧ (isDigits rest = true ∨ ∃ ds, rest = '-' :: ds ∧ isDigits ds = true) := by
    simp only [relative, mem_char_mul, mem_maybe_mul, mem_digits]
  have hsigned : ∀ ds, signedValue ('-' :: ds) = -(digitsValue ds : ℤ) := by
    intro ds
    rw [digitsValue_eq]
    rfl
  constructor
  · rintro ⟨hrelative, hvalue, hfits⟩
    refine ⟨?_, hfits⟩
    obtain ⟨rest, hchars, hdigits | ⟨ds, rfl, hdigits⟩⟩ := hform.mp hrelative
    · rw [hchars, List.tail_cons, signedValue_of_digits hdigits] at hvalue
      exact ⟨rest, hdigits, Or.inl ⟨hchars, hvalue⟩⟩
    · rw [hchars, List.tail_cons, hsigned] at hvalue
      exact ⟨ds, hdigits, Or.inr ⟨hchars, hvalue⟩⟩
  · rintro ⟨⟨ds, hdigits, ⟨hchars, hvalue⟩ | ⟨hchars, hvalue⟩⟩, hfits⟩
    · refine ⟨hform.mpr ⟨ds, hchars, Or.inl hdigits⟩, ?_, hfits⟩
      rw [hchars, List.tail_cons, signedValue_of_digits hdigits]
      exact hvalue
    · refine ⟨hform.mpr ⟨_, hchars, Or.inr ⟨ds, rfl, hdigits⟩⟩, ?_, hfits⟩
      rw [hchars, List.tail_cons, hsigned]
      exact hvalue

/-- **The relative positions that are found are those of the rule.** -/
theorem relpos?_eq_some {offset : ℤ} : relpos? s = some offset ↔ WritesOffset s offset := by
  rw [writesOffset_iff]
  unfold relpos?
  split
  · rename_i ds hchars
    constructor
    · intro h
      split_ifs at h with hdigits
      cases h
      obtain ⟨hdigits, hfits⟩ := Bool.and_eq_true_iff.mp hdigits
      have hfits : digitsValue ds ≤ 0x8000000000000000 := of_decide_eq_true hfits
      exact ⟨⟨ds, hdigits, Or.inr ⟨hchars, rfl⟩⟩, by omega, by omega⟩
    · rintro ⟨⟨ds', hdigits, ⟨hsame, -⟩ | ⟨hsame, rfl⟩⟩, hfits⟩
      · cases hchars.symm.trans hsame
        exact absurd hdigits (not_isDigits_signed ds)
      · cases hchars.symm.trans hsame
        rw [hdigits, Bool.true_and, if_pos (decide_eq_true (by omega))]
  · rename_i ds hunsigned hchars
    constructor
    · intro h
      split_ifs at h with hdigits
      cases h
      obtain ⟨hdigits, hfits⟩ := Bool.and_eq_true_iff.mp hdigits
      have hfits : digitsValue ds < 0x8000000000000000 := of_decide_eq_true hfits
      exact ⟨⟨ds, hdigits, Or.inl ⟨hchars, rfl⟩⟩, by omega, by omega⟩
    · rintro ⟨⟨ds', hdigits, ⟨hsame, rfl⟩ | ⟨hsame, -⟩⟩, hfits⟩
      · cases hchars.symm.trans hsame
        rw [hdigits, Bool.true_and, if_pos (decide_eq_true (by omega))]
      · cases hchars.symm.trans hsame
        exact absurd rfl (hunsigned ds')
  · rename_i hsigned hunsigned
    refine ⟨nofun, ?_⟩
    rintro ⟨⟨ds, -, ⟨hsame, -⟩ | ⟨hsame, -⟩⟩, -⟩
    · exact absurd hsame (hunsigned ds)
    · exact absurd hsame (hsigned ds)

/-! ## Types of extensions -/

/-- The latest type in the order of registration that has some property. -/
def Latest (p : WordType → Bool) (types : List WordType) (w : WordType) : Prop :=
  ∃ before after, types = before ++ w :: after ∧ p w = true ∧ ∀ later ∈ after, p later = false

theorem find?_reverse_eq_some {p : WordType → Bool} {w : WordType} :
    types.reverse.find? p = some w ↔ Latest p types w := by
  rw [List.find?_eq_some_iff_append]
  constructor
  · rintro ⟨hw, after, before, hsplit, hafter⟩
    refine ⟨before.reverse, after.reverse, ?_, hw, fun later hlater => ?_⟩
    · rw [← List.reverse_reverse types, hsplit]
      simp
    · simpa using hafter later (List.mem_reverse.mp hlater)
  · rintro ⟨before, after, rfl, hw, hafter⟩
    refine ⟨hw, after.reverse, before.reverse, by simp, fun later hlater => ?_⟩
    rw [hafter later (List.mem_reverse.mp hlater)]
    rfl

theorem find?_reverse_eq_none {p : WordType → Bool} :
    types.reverse.find? p = none ↔ ∀ w ∈ types, p w = false := by
  simp

/-- A plain type that accepts a text. -/
def isPlainFor (s : String) (w : WordType) : Bool := !w.isClass && w.accepts s

/-- A literal class that accepts a text. -/
def isClassFor (s : String) (w : WordType) : Bool := w.isClass && w.accepts s

/-! ## Rules -/

/-- One of the rules for values that need no extension applies. -/
def IsBuiltinForm (s : String) : Prop :=
  s = "true" ∨ s = "false" ∨ s.toList ∈ numeral.matches' ∨ IsBarGroup s ∨ ∃ offset, WritesOffset s offset

/-- **The table of rules**: which values a bare text has. -/
inductive Rule (types : List WordType) (s : String) : Value → Prop
  | boolean (b : Bool) : (s = if b then "true" else "false") → Rule types s (.boolean b)
  | number {x : Float} : s.toList ∈ numeral.matches' → read? s = some x → Rule types s (.number x)
  | group : IsBarGroup s →
      Rule types s (.group ((s.toList.splitOn '|').map fun piece => coerce types (String.ofList piece)))
  | offset {offset : ℤ} : WritesOffset s offset → Rule types s (.relpos offset)
  /-- The latest plain type that accepts the text. -/
  | typed {w : WordType} : ¬ IsBuiltinForm s → Latest (isPlainFor s) types w → Rule types s (.text (.custom w.name) s)
  | untyped : ¬ IsBuiltinForm s → (∀ w ∈ types, isPlainFor s w = false) → Rule types s (.identifier s)

theorem barGroup?_eq_none : barGroup? s = none ↔ ¬ IsBarGroup s := by
  cases hgroup : barGroup? s with
  | none =>
    refine ⟨fun _ h => ?_, fun _ => rfl⟩
    cases hgroup.symm.trans (barGroup?_eq_some.mpr ⟨h, rfl⟩)
  | some items => exact ⟨nofun, fun h => absurd (barGroup?_eq_some.mp hgroup).1 h⟩

theorem coerce_of_not_group (h : ¬ IsBarGroup s) : coerce types s = coerceSingle types s := by
  rw [coerce, barGroup?_eq_none.mpr h]

/-- No bar is in a number. -/
theorem not_group_of_numeral (h : s.toList ∈ numeral.matches') : ¬ IsBarGroup s := by
  rintro ⟨hbar, -⟩
  rcases mem_maybe_mul.mp h with hbare | ⟨rest, hsign, hrest⟩
  · cases isDigit_or_point_of_mem hbare hbar
  · rw [hsign] at hbar
    cases hbar with
    | tail _ hbar => cases isDigit_or_point_of_mem hrest hbar

/-- A number begins with a sign or a digit. -/
theorem not_numeral_of_tilde {rest : List Char} (h : s.toList = '~' :: rest) : s.toList ∉ numeral.matches' := by
  intro hnumeral
  rcases mem_maybe_mul.mp hnumeral with hbare | ⟨rest', hsign, -⟩
  · obtain ⟨c, rest', hchars, hc⟩ := exists_digit_of_mem_unsignedNumeral hbare
    cases h.symm.trans hchars
    cases hc
  · cases h.symm.trans hsign

/-- A relative position begins with a tilde, and no bar is in it. -/
theorem WritesOffset.shape {offset : ℤ} (h : WritesOffset s offset) :
    (∃ rest, s.toList = '~' :: rest) ∧ ¬ IsBarGroup s := by
  have hbar : isDigit '|' = false := by decide
  obtain ⟨⟨ds, hdigits, ⟨hchars, -⟩ | ⟨hchars, -⟩⟩, -⟩ := writesOffset_iff.mp h
  · refine ⟨⟨_, hchars⟩, fun hgroup => ?_⟩
    have hmem := hgroup.bar
    rw [hchars] at hmem
    cases hmem with
    | tail _ hmem => exact not_mem_of_isDigits hdigits hbar hmem
  · refine ⟨⟨_, hchars⟩, fun hgroup => ?_⟩
    have hmem := hgroup.bar
    rw [hchars] at hmem
    cases hmem with
    | tail _ hmem =>
      cases hmem with
      | tail _ hmem => exact not_mem_of_isDigits hdigits hbar hmem

theorem coerce_of_boolean (b : Bool) : coerce types (if b then "true" else "false") = .boolean b := by
  cases b with
  | true => rfl
  | false => rfl

theorem coerce_of_numeral (h : s.toList ∈ numeral.matches') {x : Float} (hx : read? s = some x) :
    coerce types s = .number x := by
  have hliteral := isLiteral_iff.mpr h
  have hbooleans : s ≠ "true" ∧ s ≠ "false" := by
    constructor
    · rintro rfl
      cases hliteral
    · rintro rfl
      cases hliteral
  rw [coerce_of_not_group (not_group_of_numeral h), coerceSingle, if_neg hbooleans.1, if_neg hbooleans.2,
    if_pos hliteral, literalNumber, hx]
  rfl

theorem coerce_of_group (h : IsBarGroup s) :
    coerce types s = .group ((s.toList.splitOn '|').map fun piece => coerce types (String.ofList piece)) := by
  rw [coerce, barGroup?_eq_some.mpr ⟨h, rfl⟩]
  dsimp only
  rw [List.map_map]
  -- No bar is left in the pieces, so each of them is coerced as a single text.
  refine congrArg Value.group (List.map_congr_left fun piece hpiece => ?_)
  rw [← pieces_eq_splitOn] at hpiece
  refine (coerce_of_no_bar types ?_).symm
  rw [String.toList_ofList]
  exact not_mem_of_mem_pieces hpiece

theorem coerce_of_offset {offset : ℤ} (h : WritesOffset s offset) : coerce types s = .relpos offset := by
  obtain ⟨⟨rest, hchars⟩, hgroup⟩ := h.shape
  have hbooleans : s ≠ "true" ∧ s ≠ "false" := by
    constructor
    · rintro rfl
      cases hchars
    · rintro rfl
      cases hchars
  have hliteral : ¬ isLiteral s = true := fun h => not_numeral_of_tilde hchars (isLiteral_iff.mp h)
  rw [coerce_of_not_group hgroup, coerceSingle, if_neg hbooleans.1, if_neg hbooleans.2, if_neg hliteral,
    relpos?_eq_some.mpr h]

/-- The types of extensions come last. -/
theorem coerce_of_not_builtin (h : ¬ IsBuiltinForm s) :
    coerce types s = match plainType? types s with
      | some w => .text (.custom w.name) s
      | none => .identifier s := by
  have hoffset : ∀ offset, relpos? s ≠ some offset := fun offset hs =>
    h (Or.inr (Or.inr (Or.inr (Or.inr ⟨offset, relpos?_eq_some.mp hs⟩))))
  have htrue : s ≠ "true" := fun hs => h (Or.inl hs)
  have hfalse : s ≠ "false" := fun hs => h (Or.inr (Or.inl hs))
  have hliteral : ¬ isLiteral s = true := fun hs => h (Or.inr (Or.inr (Or.inl (isLiteral_iff.mp hs))))
  have hgroup : ¬ IsBarGroup s := fun hs => h (Or.inr (Or.inr (Or.inr (Or.inl hs))))
  rw [coerce_of_not_group hgroup, coerceSingle, if_neg htrue, if_neg hfalse, if_neg hliteral]
  split
  · rename_i offset hs
    exact absurd hs (hoffset offset)
  · rfl

/-- What a rule gives is what is computed. -/
theorem Rule.coerce_eq {v : Value} (h : Rule types s v) : coerce types s = v := by
  cases h with
  | boolean b hs =>
    rw [hs]
    exact coerce_of_boolean b
  | number hnumeral hx => exact coerce_of_numeral hnumeral hx
  | group hgroup => exact coerce_of_group hgroup
  | offset hoffset => exact coerce_of_offset hoffset
  | typed hnot hw =>
    have hfound : plainType? types s = some _ := find?_reverse_eq_some.mpr hw
    rw [coerce_of_not_builtin hnot, hfound]
  | untyped hnot hnone =>
    have hfound : plainType? types s = none := find?_reverse_eq_none.mpr hnone
    rw [coerce_of_not_builtin hnot, hfound]

/-- Some rule applies to every text. -/
theorem exists_rule (types : List WordType) (s : String) : ∃ v, Rule types s v := by
  by_cases hbuiltin : IsBuiltinForm s
  · rcases hbuiltin with hs | hs | hnumeral | hgroup | ⟨offset, hoffset⟩
    · exact ⟨_, .boolean true hs⟩
    · exact ⟨_, .boolean false hs⟩
    · obtain ⟨x, hx⟩ := exists_read?_of_isLiteral (isLiteral_iff.mpr hnumeral)
      exact ⟨_, .number hnumeral hx⟩
    · exact ⟨_, .group hgroup⟩
    · exact ⟨_, .offset hoffset⟩
  · cases hfound : types.reverse.find? (isPlainFor s) with
    | some w => exact ⟨_, .typed hbuiltin (find?_reverse_eq_some.mp hfound)⟩
    | none => exact ⟨_, .untyped hbuiltin (find?_reverse_eq_none.mp hfound)⟩

/-- **A bare text has the value that the table gives it.** -/
theorem coerce_eq_iff {v : Value} : coerce types s = v ↔ Rule types s v := by
  refine ⟨?_, Rule.coerce_eq⟩
  rintro rfl
  obtain ⟨v, hv⟩ := exists_rule types s
  rwa [hv.coerce_eq]

/-! ## What each kind of value says about the text -/

theorem rule_boolean_iff {b : Bool} : Rule types s (.boolean b) ↔ s = if b then "true" else "false" := by
  constructor
  · intro h
    cases h with
    | boolean _ hs => exact hs
  · exact Rule.boolean b

theorem rule_number_iff {x : Float} :
    Rule types s (.number x) ↔ s.toList ∈ numeral.matches' ∧ read? s = some x := by
  constructor
  · intro h
    cases h with
    | number hnumeral hx => exact ⟨hnumeral, hx⟩
  · rintro ⟨hnumeral, hx⟩
    exact .number hnumeral hx

theorem exists_rule_number_iff : (∃ x, Rule types s (.number x)) ↔ s.toList ∈ numeral.matches' := by
  constructor
  · rintro ⟨x, h⟩
    exact (rule_number_iff.mp h).1
  · intro h
    obtain ⟨x, hx⟩ := exists_read?_of_isLiteral (isLiteral_iff.mpr h)
    exact ⟨x, .number h hx⟩

theorem rule_group_iff {items : List Value} : Rule types s (.group items) ↔
    ('|' ∈ s.toList ∧ ∀ piece ∈ s.toList.splitOn '|', piece ≠ []) ∧
      items = (s.toList.splitOn '|').map fun piece => coerce types (String.ofList piece) := by
  constructor
  · intro h
    cases h with
    | group hgroup => exact ⟨⟨hgroup.bar, hgroup.filled⟩, rfl⟩
  · rintro ⟨⟨hbar, hfilled⟩, rfl⟩
    exact .group ⟨hbar, hfilled⟩

theorem rule_offset_iff {offset : ℤ} : Rule types s (.relpos offset) ↔
    s.toList ∈ relative.matches' ∧ offset = signedValue s.toList.tail ∧ -2 ^ 63 ≤ offset ∧ offset < 2 ^ 63 := by
  constructor
  · intro h
    cases h with
    | offset hoffset => exact ⟨hoffset.form, hoffset.value, hoffset.fits⟩
  · rintro ⟨hform, hvalue, hfits⟩
    exact .offset ⟨hform, hvalue, hfits⟩

theorem rule_text_iff {tag : Tag} {t : String} : Rule types s (.text tag t) ↔
    ¬ IsBuiltinForm s ∧ t = s ∧ ∃ w, Latest (isPlainFor s) types w ∧ tag = .custom w.name := by
  constructor
  · intro h
    cases h with
    | typed hnot hw => exact ⟨hnot, rfl, _, hw, rfl⟩
  · rintro ⟨hnot, rfl, w, hw, rfl⟩
    exact .typed hnot hw

theorem rule_word_iff {tag : Tag} {t : String} : Rule types s (.word tag t) ↔
    ¬ IsBuiltinForm s ∧ t = s ∧ tag = .identifier ∧ ∀ w ∈ types, isPlainFor s w = false := by
  constructor
  · intro h
    cases h with
    | untyped hnot hnone => exact ⟨hnot, rfl, rfl, hnone⟩
  · rintro ⟨hnot, rfl, rfl, hnone⟩
    exact .untyped hnot hnone

/-! ## Classification -/

/-- What is no identifier is not classified. -/
theorem classify_of_not_word (v : Value) : (∃ tag t, v = .word tag t) ∨ classify types v = v := by
  cases v with
  | word tag t => exact Or.inl ⟨tag, t, rfl⟩
  | number _ | text _ _ | boolean _ | group _ | object _ | relpos _ => exact Or.inr rfl

/-- **The rules of classification**: which tag an identifier gets in the place of its own. -/
inductive ClassRule (types : List WordType) (s : String) (tag : Tag) : Tag → Prop
  | comparator : s ∈ comparators → ClassRule types s tag .comparator
  /-- The latest literal class that accepts the text. -/
  | classed {w : WordType} : s ∉ comparators → Latest (isClassFor s) types w → ClassRule types s tag (.ofName w.name)
  | unclassed : s ∉ comparators → (∀ w ∈ types, isClassFor s w = false) → ClassRule types s tag tag

theorem ClassRule.classify_eq {tag tag' : Tag} (h : ClassRule types s tag tag') :
    classify types (.word tag s) = .word tag' s := by
  cases h with
  | comparator hcomparator => exact if_pos hcomparator
  | classed hother hw =>
    have hfound : literalClass? types s = some _ := find?_reverse_eq_some.mpr hw
    rw [classify, if_neg hother, hfound]
  | unclassed hother hnone =>
    have hfound : literalClass? types s = none := find?_reverse_eq_none.mpr hnone
    rw [classify, if_neg hother, hfound]

/-- Some rule of classification applies to every identifier. -/
theorem exists_classRule (types : List WordType) (s : String) (tag : Tag) : ∃ tag', ClassRule types s tag tag' := by
  by_cases hcomparator : s ∈ comparators
  · exact ⟨_, .comparator hcomparator⟩
  · cases hfound : types.reverse.find? (isClassFor s) with
    | some w => exact ⟨_, .classed hcomparator (find?_reverse_eq_some.mp hfound)⟩
    | none => exact ⟨_, .unclassed hcomparator (find?_reverse_eq_none.mp hfound)⟩

/-- **An identifier keeps its text, and has the tag that the rules give it.** -/
theorem classify_eq_iff {tag : Tag} {v : Value} :
    classify types (.word tag s) = v ↔ ∃ tag', v = .word tag' s ∧ ClassRule types s tag tag' := by
  constructor
  · rintro rfl
    obtain ⟨tag', htag⟩ := exists_classRule types s tag
    exact ⟨tag', htag.classify_eq, htag⟩
  · rintro ⟨tag', rfl, htag⟩
    exact htag.classify_eq

/-! ## The whole table -/

/-- **Coercion follows its table of rules**, for every text and all types.

* A truth value comes from `true` and `false` only, and a number from the texts of `-?[0-9]+(\.[0-9]+)?` only, all of
  which can be read.
* A group comes from a text with a bar between whose bars nothing is empty; its elements are the coercions of the pieces
  in order.  A relative position comes from a text of `~-?[0-9]+` whose offset has 64 signed bits, and holds the offset.
* Any other text is kept, under the name of the latest plain type that accepts it, and as an identifier when there is
  none.
* Classification changes nothing but the tag of identifiers: comparators get theirs, and other words that of the latest
  literal class that accepts them, if there is one. -/
theorem coercion_follows_rules (types : List WordType) (s : String) :
    (coerce types s = .boolean true ↔ s = "true") ∧ (coerce types s = .boolean false ↔ s = "false") ∧
    ((∃ x, coerce types s = .number x) ↔ s.toList ∈ numeral.matches') ∧
    (∀ x, coerce types s = .number x ↔ s.toList ∈ numeral.matches' ∧ read? s = some x) ∧
    (∀ items, coerce types s = .group items ↔ ('|' ∈ s.toList ∧ ∀ piece ∈ s.toList.splitOn '|', piece ≠ []) ∧
      items = (s.toList.splitOn '|').map fun piece => coerce types (String.ofList piece)) ∧
    (∀ offset, coerce types s = .relpos offset ↔ s.toList ∈ relative.matches' ∧
      offset = signedValue s.toList.tail ∧ -2 ^ 63 ≤ offset ∧ offset < 2 ^ 63) ∧
    (∀ tag t, coerce types s = .text tag t ↔
      ¬ IsBuiltinForm s ∧ t = s ∧ ∃ w, Latest (isPlainFor s) types w ∧ tag = .custom w.name) ∧
    (∀ tag t, coerce types s = .word tag t ↔
      ¬ IsBuiltinForm s ∧ t = s ∧ tag = .identifier ∧ ∀ w ∈ types, isPlainFor s w = false) ∧
    (∀ v, (∃ tag t, v = .word tag t) ∨ classify types v = v) ∧
    ∀ tag v, classify types (.word tag s) = v ↔ ∃ tag', v = .word tag' s ∧ ClassRule types s tag tag' := by
  simp only [coerce_eq_iff]
  exact ⟨rule_boolean_iff, rule_boolean_iff, exists_rule_number_iff, fun x => rule_number_iff,
    fun items => rule_group_iff, fun offset => rule_offset_iff, fun tag t => rule_text_iff,
    fun tag t => rule_word_iff, classify_of_not_word, fun tag v => classify_eq_iff⟩

end LineScript
