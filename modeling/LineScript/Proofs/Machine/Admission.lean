/-
# What is admitted as code

A statement looks for code at certain places: for its labels, its keyword, names, comparators and separators.  Data is
refused there for one of two reasons.

* By its tag: no check that asks for code admits data (`Token.IsData.rejected`), and an argument is checked so wherever
  a keyword takes it for code (`exists_check_of_takesForCode`).
* By its text: no keyword, label or separator is the text of a number, a truth value, a group, an object or an offset
  (`display_not_code`).  Plain texts are no words at all.
-/
import LineScript.Proofs.Machine.Data

namespace LineScript

/-! ## The text of data -/

/-- The words that a statement can take for code: the keywords, those that are gone, the labels and the separators. -/
def codeWords : List String :=
  Builtin.all.map (·.name) ++ replacements.map (·.1) ++ Registry.initial.labels.names ++ ["with", "from"]

namespace Decimal

/-- A character that the decimal text of a number can have. -/
def isNumeral (c : Char) : Bool := c.isDigit || c == '-' || c == '.'

theorem isNumeral_of_mem_toDigits {n : Nat} {c : Char} (h : c ∈ Nat.toDigits 10 n) : isNumeral c = true := by
  rw [isNumeral, Nat.isDigit_of_mem_toDigits (by decide) (by decide) h]
  rfl

theorem isNumeral_of_mem_naturalText {n : Nat} {c : Char} (h : c ∈ (naturalText n).toList) : isNumeral c = true := by
  rw [naturalText, String.toList_ofList] at h
  exact isNumeral_of_mem_toDigits h

theorem isNumeral_of_mem_integerText {i : Int} {c : Char} (h : c ∈ (integerText i).toList) : isNumeral c = true := by
  cases i with
  | ofNat n => exact isNumeral_of_mem_naturalText h
  | negSucc n =>
    rw [integerText, String.toList_append] at h
    rcases List.mem_append.mp h with hsign | hdigit
    · obtain rfl := List.mem_singleton.mp hsign
      rfl
    · exact isNumeral_of_mem_naturalText hdigit

theorem isNumeral_of_mem_positional {s : Scientific} {c : Char} (h : c ∈ s.positional.toList) :
    isNumeral c = true := by
  unfold Scientific.positional at h
  split_ifs at h
  · exact isNumeral_of_mem_naturalText h
  · dsimp only at h
    rw [String.toList_ofList] at h
    generalize hpadded : List.replicate ((-s.exponent).toNat + 1 - (Nat.toDigits 10 s.digits).length) '0' ++
      Nat.toDigits 10 s.digits = padded at h
    have hdigits : ∀ c ∈ padded, isNumeral c = true := by
      intro c hc
      rw [← hpadded] at hc
      rcases List.mem_append.mp hc with hzero | hdigit
      · obtain rfl := List.eq_of_mem_replicate hzero
        rfl
      · exact isNumeral_of_mem_toDigits hdigit
    split_ifs at h
    · exact hdigits c (List.mem_of_mem_take h)
    · rcases List.mem_append.mp h with hwhole | hpoint
      · exact hdigits c (List.mem_of_mem_take hwhole)
      · rcases List.mem_cons.mp hpoint with rfl | hkept
        · rfl
        · rw [List.mem_reverse] at hkept
          have hfraction := (List.dropWhile_sublist _).subset hkept
          rw [List.mem_reverse] at hfraction
          exact hdigits c (List.mem_of_mem_drop hfraction)

/-- A number is shown by digits, signs and points, but for three values. -/
theorem text_numerals (x : Float) :
    (∀ c ∈ (text x).toList, isNumeral c = true) ∨ text x ∈ ["NaN", "-inf", "inf"] := by
  have hsigned : ∀ (negative : Bool) (s : Scientific),
      ∀ c ∈ ((if negative then "-" else "") ++ s.positional).toList, isNumeral c = true := by
    intro negative s c hc
    rw [String.toList_append] at hc
    rcases List.mem_append.mp hc with hsign | hdigit
    · cases negative with
      | false => cases hsign
      | true =>
        obtain rfl := List.mem_singleton.mp hsign
        rfl
    · exact isNumeral_of_mem_positional hdigit
  unfold text
  split
  · right
    split_ifs <;> simp
  · left
    split
    · split
      · exact fun c hc => isNumeral_of_mem_integerText hc
      · exact hsigned _ _
    · exact hsigned _ _

end Decimal

open Decimal

/-- No word of code is a number, or has a character that opens the text of a group, an object or an offset. -/
theorem codeWords_marks : ∀ w ∈ codeWords, w.toList.any (!isNumeral ·) = true ∧
    w ∉ ["NaN", "-inf", "inf", "true", "false"] ∧ w.toList.head? ∉ [some '[', some '<', some '~'] := by
  decide +kernel

/-- **The text of data is not a word of code**, unless the data is a text itself. -/
theorem display_not_code {v : Value} (h : v.isData = true) (htag : v.tag ≠ .string) : v.display ∉ codeWords := by
  intro hcode
  obtain ⟨hnumber, hnamed, hmark⟩ := codeWords_marks _ hcode
  cases v with
  | number x =>
    rw [Value.display] at hnumber hnamed
    rcases text_numerals x with hnumerals | hspecial
    · rw [List.any_eq_true] at hnumber
      obtain ⟨c, hc, hnot⟩ := hnumber
      rw [hnumerals c hc] at hnot
      cases hnot
    · exact hnamed (by simp_all)
  | text t s =>
    obtain rfl : t = .string := by simpa [Value.isData] using h
    exact htag rfl
  | word t s => simp [Value.isData] at h
  | boolean b => cases b <;> simp [Value.display] at hnamed
  | group items => simp [Value.display] at hmark
  | object id => simp [Value.display] at hmark
  | relpos offset => simp [Value.display] at hmark

/-! ## Tokens -/

/-- A token that holds data and shows it. -/
structure Token.IsData (t : Token) : Prop where
  value : t.value.isData = true
  text : t.text = t.value.display

theorem Token.IsData.text_not_code {t : Token} (h : t.IsData) (hword : t.isWord = true) : t.text ∉ codeWords := by
  rw [h.text]
  exact display_not_code h.value (by simpa [Token.isWord] using hword)

/-! ## Arguments -/

/-- A specification that asks for a name, a comparator or a separator. -/
def Spec.asksForCode : Spec → Bool
  | any => false
  | tags names => names.all fun name => name == "identifier" || name == "comparator"
  | words choices => choices.all codeWords.contains

/-- **Data is not admitted where code is asked for.** -/
theorem Token.IsData.rejected {t : Token} (h : t.IsData) {spec : Spec} (hspec : spec.asksForCode = true) :
    spec.accepts t = false := by
  cases spec with
  | any => cases hspec
  | tags names =>
    rw [Spec.accepts, List.any_eq_false]
    intro name hname
    have hcode := List.all_eq_true.mp hspec name hname
    have htag : t.value.tag.name ≠ "identifier" ∧ t.value.tag.name ≠ "comparator" := by
      have hdata := h.value
      cases hvalue : t.value with
      | text tag s =>
        rw [hvalue] at hdata
        obtain rfl : tag = .string := by simpa [Value.isData] using hdata
        simp [Value.tag, Tag.name]
      | word tag s =>
        rw [hvalue] at hdata
        simp [Value.isData] at hdata
      | _ => simp [Value.tag, Tag.name]
    simp only [Bool.or_eq_true, beq_iff_eq] at hcode
    rcases hcode with rfl | rfl <;> simp [htag]
  | words choices =>
    rw [Spec.accepts, Bool.and_eq_false_iff]
    by_cases hword : t.isWord = true
    · right
      rw [← Bool.not_eq_true, List.contains_iff_mem]
      intro hchoice
      have hcode := List.all_eq_true.mp hspec t.text hchoice
      exact h.text_not_code hword (List.contains_iff_mem.mp hcode)
    · exact Or.inl (Bool.not_eq_true _ ▸ hword)

/-- The descriptor that an argument at a position is checked against. -/
def descriptorAt : List Descriptor → Nat → Option Descriptor
  | [], _ => none
  | d :: ds, position =>
    if d.recurring then some d
    else match position with
      | 0 => some d
      | position + 1 => descriptorAt ds position

theorem Descriptor.accepts_of_check {d : Descriptor} {keyword : String} {arg : Token}
    (h : d.check keyword arg = .ok ()) : d.spec.accepts arg = true := by
  unfold Descriptor.check at h
  split_ifs at h with haccepts
  exact haccepts

theorem Descriptor.accepts_of_checkAll {d : Descriptor} {keyword : String} {args : List Token}
    (h : d.checkAll keyword args = .ok ()) : ∀ arg ∈ args, d.spec.accepts arg = true := by
  induction args with
  | nil => rintro arg ⟨⟩
  | cons first rest ih =>
    obtain ⟨⟨⟩, hfirst, hrest⟩ := Symbols.bind_eq_ok h
    intro arg harg
    rcases List.mem_cons.mp harg with rfl | hmem
    · exact accepts_of_check hfirst
    · exact ih hrest arg hmem

/-- **Arguments that pass the check are admitted, each by the descriptor of its position.** -/
theorem accepts_of_validate {keyword : String} {descriptors : List Descriptor} {args : List Token}
    (h : validate keyword descriptors args = .ok ()) {position : Nat} {arg : Token}
    (harg : args[position]? = some arg) :
    ∃ d, descriptorAt descriptors position = some d ∧ d.spec.accepts arg = true := by
  unfold validate at h
  generalize Fault.argumentsTooMany keyword descriptors.length args.length = tooMany at h
  induction descriptors generalizing args position with
  | nil =>
    cases args with
    | nil => cases harg
    | cons first rest => cases h
  | cons d ds ih =>
    cases args with
    | nil => cases harg
    | cons first rest =>
      unfold validateFrom at h
      unfold descriptorAt
      split_ifs at h ⊢ with hrecurring
      · exact ⟨d, rfl, Descriptor.accepts_of_checkAll h arg (List.mem_of_getElem? harg)⟩
      · obtain ⟨⟨⟩, hfirst, hrest⟩ := Symbols.bind_eq_ok h
        cases position with
        | zero =>
          obtain rfl := Option.some.inj harg
          exact ⟨d, rfl, Descriptor.accepts_of_check hfirst⟩
        | succ position => exact ih harg hrest

/-! ## What keywords take for code -/

/-- What the arguments of a keyword are checked against behind the statement that has left the context `c`. -/
def Builtin.checks (c : Context) (b : Builtin) : List (List Descriptor) :=
  b.descriptors :: match b, c.lastKeyword with
    | .continuation, some "if" => if c.satisfied then [] else [conditionDescriptors]
    | .continuation, some "class" => [classPropertyDescriptors]
    | _, _ => []

/-- Does a keyword take the argument at a position for code: for the name of a variable, a function, a class, a
property or a parameter, for a comparator or for a separator? -/
def Builtin.takesForCode (c : Context) (b : Builtin) (position : Nat) : Bool :=
  match b with
  | .declare | .assign | .arithmetic _ | .join | .execute | .finish | .newClass | .property | .exportName
  | .importName => position == 0
  | .function | .newObject => true
  | .condition => position == 1
  | .iterate => position == 1 || position == 2
  | .continuation =>
    match c.lastKeyword with
    | some "if" => !c.satisfied && position == 1
    | some "class" => position == 0
    | _ => false
  | .log | .otherwise | .jump | .pause | .awaitKey | .stop | .restart => false

/-- The check of an argument asks for code. -/
def AsksForCode (descriptors : List Descriptor) (position : Nat) : Prop :=
  ∀ d ∈ descriptorAt descriptors position, d.spec.asksForCode = true

instance (descriptors : List Descriptor) (position : Nat) : Decidable (AsksForCode descriptors position) :=
  inferInstanceAs (Decidable (∀ d ∈ descriptorAt descriptors position, d.spec.asksForCode = true))

/-- **Every argument that is taken for code is checked to be code.** -/
theorem exists_check_of_takesForCode {c : Context} {b : Builtin} {position : Nat}
    (h : b.takesForCode c position = true) : ∃ ds ∈ b.checks c, AsksForCode ds position := by
  have hfirst : AsksForCode b.descriptors position → ∃ ds ∈ b.checks c, AsksForCode ds position :=
    fun hasks => ⟨_, List.mem_cons_self, hasks⟩
  cases b with
  | arithmetic op =>
    obtain rfl : position = 0 := by simpa [Builtin.takesForCode] using h
    exact hfirst (by cases op <;> decide)
  | declare | assign | join | execute | finish | newClass | property | exportName | importName =>
    obtain rfl : position = 0 := by simpa [Builtin.takesForCode] using h
    exact hfirst (by decide)
  | function =>
    -- All that stands behind the name is checked by the descriptor of the parameters.
    refine hfirst ?_
    cases position with
    | zero => decide
    | succ position =>
      rintro d ⟨⟩
      decide
  | condition =>
    obtain rfl : position = 1 := by simpa [Builtin.takesForCode] using h
    exact hfirst (by decide)
  | iterate =>
    have hposition : position = 1 ∨ position = 2 := by simpa [Builtin.takesForCode] using h
    rcases hposition with rfl | rfl <;> exact hfirst (by decide)
  | newObject =>
    refine hfirst ?_
    match position with
    | 0 | 1 | 2 => decide
    | position + 3 => rintro d ⟨⟩
  | continuation =>
    unfold Builtin.takesForCode at h
    dsimp only at h
    split at h
    · rename_i hkeyword
      rw [Bool.and_eq_true] at h
      obtain rfl : position = 1 := by simpa using h.2
      have hunsatisfied : c.satisfied = false := by simpa using h.1
      refine ⟨conditionDescriptors, ?_, by decide⟩
      unfold Builtin.checks
      rw [hkeyword, hunsatisfied]
      exact List.mem_cons_of_mem _ List.mem_cons_self
    · rename_i hkeyword
      obtain rfl : position = 0 := by simpa using h
      refine ⟨classPropertyDescriptors, ?_, by decide⟩
      unfold Builtin.checks
      rw [hkeyword]
      exact List.mem_cons_of_mem _ List.mem_cons_self
    · cases h
  | log | otherwise | jump | pause | awaitKey | stop | restart => cases h

end LineScript
