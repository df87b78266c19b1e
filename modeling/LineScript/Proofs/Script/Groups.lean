/-
# Two spellings of a group

A group is written bare, with bars between its elements (`barred`), or in brackets (`bracketed`).  The bare spelling is
a single word, which becomes a group as a whole, so that its elements are coerced but not classified.  Between brackets
each element is coerced and classified.

* `tokenize_barred`, `tokenize_bracketed`: either spelling is one token, a group of the elements in their order;
* `normalized_group_wordValue`: storing forgets whether elements were classified;
* `isFreeOfNaN_coerce`: what a text is coerced to equals itself.

Main statement: what is stored does not depend on the spelling (`spellings_store_alike`).
-/
import LineScript.Proofs.Decimal.Literals
import LineScript.Proofs.Script.Words
import LineScript.Proofs.Values.Coercion
import LineScript.Proofs.Values.Comparison

namespace LineScript

open Text Decimal

/-! ## Elements -/

/-- Can both spellings hold the text as an element: is it not empty, without blanks and without marks of either
spelling or of other parts of a line? -/
structure IsElement (s : String) : Prop where
  filled : s ≠ ""
  clean : ∀ c ∈ s.toList, isBlank c = false ∧ c ∉ ['|', '"', '[', ']', '\\']

-- The characters of the text are tried, and not all that there are.
instance (s : String) : Decidable (IsElement s) :=
  have := List.decidableBAll (fun c => isBlank c = false ∧ c ∉ ['|', '"', '[', ']', '\\']) s.toList
  decidable_of_iff (s ≠ "" ∧ ∀ c ∈ s.toList, isBlank c = false ∧ c ∉ ['|', '"', '[', ']', '\\'])
    ⟨fun h => ⟨h.1, h.2⟩, fun h => ⟨h.filled, h.clean⟩⟩

/-- The elements of a group joined by bars. -/
def barred (items : List String) : String := String.intercalate "|" items

/-- The elements of a group joined by bars between brackets. -/
def bracketed (items : List String) : String := "[" ++ barred items ++ "]"

section Elements

variable {s : String} {items : List String} {c : Char}

theorem IsElement.ne_of_mem (h : IsElement s) (hc : c ∈ s.toList) :
    c ≠ '|' ∧ c ≠ '"' ∧ c ≠ '[' ∧ c ≠ ']' ∧ c ≠ '\\' := by
  simpa using (h.clean c hc).2

/-- The elements are what stands between the bars. -/
theorem pieces_barred (hsome : items ≠ []) (hitems : ∀ e ∈ items, IsElement e) :
    pieces '|' (barred items).toList = items.map String.toList := by
  rw [pieces_eq_splitOn, barred, String.toList_intercalate]
  refine List.splitOn_intercalate '|' ?_ (by simpa using hsome)
  intro cs hcs hbar
  obtain ⟨e, he, rfl⟩ := List.mem_map.mp hcs
  obtain ⟨hinside, -⟩ := (hitems e he).ne_of_mem hbar
  exact hinside rfl

/-- Besides the characters of the elements there are bars only. -/
theorem mem_barred (hc : c ∈ (barred items).toList) : c = '|' ∨ ∃ e ∈ items, c ∈ e.toList := by
  induction items with
  | nil => simp [barred] at hc
  | cons e rest ih =>
    cases rest with
    | nil =>
      rw [barred, String.intercalate_singleton] at hc
      exact Or.inr ⟨e, List.mem_cons_self, hc⟩
    | cons f rest =>
      rw [barred, String.intercalate_cons_cons, String.toList_append, String.toList_append, List.mem_append,
        List.mem_append] at hc
      rcases hc with (hc | hc) | hc
      · exact Or.inr ⟨e, List.mem_cons_self, hc⟩
      · exact Or.inl (List.mem_singleton.mp hc)
      · exact (ih hc).imp_right fun ⟨g, hg, hmem⟩ => ⟨g, List.mem_cons_of_mem e hg, hmem⟩

/-- Two elements or more, joined by bars, are a group to the rules of coercion. -/
theorem isBarGroup_barred (hcount : 2 ≤ items.length) (hitems : ∀ e ∈ items, IsElement e) :
    IsBarGroup (barred items) := by
  have hpieces := pieces_barred (List.ne_nil_of_length_pos (by omega)) hitems
  have hlength := length_pieces '|' (barred items).toList
  rw [hpieces, List.length_map] at hlength
  refine ⟨List.count_pos_iff.mp (by omega), ?_⟩
  rw [← pieces_eq_splitOn, hpieces]
  intro piece hpiece
  obtain ⟨e, he, rfl⟩ := List.mem_map.mp hpiece
  simpa using (hitems e he).filled

/-- Elements joined by bars are a single word. -/
theorem isBareWord_barred (hcount : 2 ≤ items.length) (hitems : ∀ e ∈ items, IsElement e) :
    IsBareWord (barred items) := by
  have hbar := (isBarGroup_barred hcount hitems).bar
  refine ⟨List.ne_nil_of_mem hbar, fun c hc => ?_⟩
  rcases mem_barred hc with rfl | ⟨e, he, hmem⟩
  · decide
  · have hblank := ((hitems e he).clean c hmem).1
    obtain ⟨-, hquote, hopen, -, hslash⟩ := (hitems e he).ne_of_mem hmem
    exact ⟨hblank, hquote, hopen, hslash⟩

/-- Nothing between the bars closes the brackets. -/
theorem close_not_mem_barred (hitems : ∀ e ∈ items, IsElement e) : ']' ∉ (barred items).toList := by
  intro hclose
  rcases mem_barred hclose with hbar | ⟨e, he, hmem⟩
  · cases hbar
  · obtain ⟨-, -, -, hinside, -⟩ := (hitems e he).ne_of_mem hmem
    exact hinside rfl

end Elements

/-! ## Tokens -/

section Tokens

variable {types : List WordType} {resolver : Option Resolver} {items : List String}

theorem coerce_barred (hcount : 2 ≤ items.length) (hitems : ∀ e ∈ items, IsElement e) :
    coerce types (barred items) = .group (items.map (coerce types)) := by
  rw [coerce_of_group (isBarGroup_barred hcount hitems), ← pieces_eq_splitOn,
    pieces_barred (List.ne_nil_of_length_pos (by omega)) hitems, List.map_map]
  simp [Function.comp_def]

/-- **Elements joined by bars are one token**, the group of what they are coerced to. -/
theorem tokenize_barred (hcount : 2 ≤ items.length) (hitems : ∀ e ∈ items, IsElement e) :
    tokenize types resolver (barred items) = .ok [⟨.group (items.map (coerce types)), barred items⟩] := by
  rw [tokenize_word (isBareWord_barred hcount hitems), wordToken, wordValue, coerce_barred hcount hitems]
  rfl

/-- A text in brackets is one token, the group of its pieces between bars. -/
theorem tokenize_group {text : String} (hclose : ']' ∉ text.toList) :
    tokenize types resolver ("[" ++ text ++ "]") =
      .ok [⟨.group ((groupItems text.toList).map (wordValue types)), "[" ++ text ++ "]"⟩] := by
  have hregular : (Part.group text.toList).Regular := hclose
  have hchars : ("[" ++ text ++ "]").toList = (Part.group text.toList).chars := by simp [Part.chars]
  rw [tokenize_part hregular hchars rfl, Lexeme.token, between, String.ofList_toList]
  rfl

/-- **Elements between brackets are one token**, the group of what they are coerced to and classified as. -/
theorem tokenize_bracketed (hcount : 2 ≤ items.length) (hitems : ∀ e ∈ items, IsElement e) :
    tokenize types resolver (bracketed items) = .ok [⟨.group (items.map (wordValue types)), bracketed items⟩] := by
  have hsome : (barred items).toList.isEmpty = false :=
    List.isEmpty_eq_false_iff.mpr (isBareWord_barred hcount hitems).1
  have hgroup : groupItems (barred items).toList = items := by
    rw [groupItems, hsome, pieces_barred (List.ne_nil_of_length_pos (by omega)) hitems]
    simp
  rw [bracketed, tokenize_group (close_not_mem_barred hitems), hgroup]

end Tokens

/-! ## Stored groups -/

section Stored

variable (types : List WordType)

/-- **Storing forgets whether elements were classified.** -/
theorem normalized_group_wordValue (items : List String) :
    (Value.group (items.map (wordValue types))).normalized = (Value.group (items.map (coerce types))).normalized := by
  rw [Value.normalized_group, Value.normalized_group, Value.normalizedAll_eq_map, Value.normalizedAll_eq_map,
    List.map_map, List.map_map]
  exact congrArg Value.group (List.map_congr_left fun e _ => classify_normalized types (coerce types e))

theorem isFreeOfNaN_coerceSingle (s : String) : (coerceSingle types s).IsFreeOfNaN := by
  unfold coerceSingle
  split_ifs with htrue hfalse hliteral
  · exact Value.isFreeOfNaN_of_none rfl rfl
  · exact Value.isFreeOfNaN_of_none rfl rfl
  · rintro n (_ | _)
    exact isNaN_literalNumber hliteral
  · split
    · exact Value.isFreeOfNaN_of_none rfl rfl
    · split <;> exact Value.isFreeOfNaN_of_none rfl rfl

/-- **No text is coerced to a value with a NaN inside.** -/
theorem isFreeOfNaN_coerce (s : String) : (coerce types s).IsFreeOfNaN := by
  unfold coerce
  split
  · rename_i items _
    refine Value.isFreeOfNaN_group fun v hv => ?_
    obtain ⟨e, -, rfl⟩ := List.mem_map.mp hv
    exact isFreeOfNaN_coerceSingle types e
  · exact isFreeOfNaN_coerceSingle types s

end Stored

/-- **The spellings of a group are interchangeable once stored.**  Two or more elements, joined by bars or joined by
bars between brackets, are a line of one token, whose value is a group of these elements, whatever types there are and
with or without a resolver.

* The bare spelling coerces its elements, and the one in brackets classifies what it coerces.
* The two values have the same stored form, which equals itself as scripts compare values. -/
theorem spellings_store_alike (types : List WordType) (resolver : Option Resolver) {items : List String}
    (hcount : 2 ≤ items.length) (hitems : ∀ e ∈ items, IsElement e) :
    ∃ bare inBrackets : Token,
      tokenize types resolver (barred items) = .ok [bare] ∧ bare.value.tag = .group ∧
      tokenize types resolver (bracketed items) = .ok [inBrackets] ∧ inBrackets.value.tag = .group ∧
      bare.value.normalized = inBrackets.value.normalized ∧
      bare.value.normalized.sameRaw inBrackets.value.normalized = true ∧
      bare.value = .group (items.map (coerce types)) ∧
      inBrackets.value = .group (items.map fun e => classify types (coerce types e)) := by
  have hsame := normalized_group_wordValue types items
  have hfree : (Value.group (items.map (coerce types))).IsFreeOfNaN := by
    rw [← coerce_barred hcount hitems]
    exact isFreeOfNaN_coerce types (barred items)
  refine ⟨_, _, tokenize_barred hcount hitems, rfl, tokenize_bracketed hcount hitems, rfl, hsame.symm, ?_, rfl, rfl⟩
  rw [hsame, Value.sameRaw_normalized]
  exact hfree.sameRaw_self

/-- A comparator and a word of a literal class among elements of other kinds: the values differ until they are
stored. -/
theorem spellings_store_alike_of_classified :
    let types : List WordType := [⟨"color", false, (· = "#f00")⟩, ⟨"direction", true, (· = "north")⟩]
    let items := ["<", "north", "#f00", "-2", "~3", "true", "south"]
    2 ≤ items.length ∧ (∀ e ∈ items, IsElement e) ∧ ∃ bare inBrackets : Token,
      tokenize types none "<|north|#f00|-2|~3|true|south" = .ok [bare] ∧
      tokenize types none "[<|north|#f00|-2|~3|true|south]" = .ok [inBrackets] ∧
      bare.value = .group [.identifier "<", .identifier "north", .text (.custom "color") "#f00", .number (-2),
        .relpos 3, .boolean true, .identifier "south"] ∧
      inBrackets.value = .group [.word .comparator "<", .word (.custom "direction") "north",
        .text (.custom "color") "#f00", .number (-2), .relpos 3, .boolean true, .identifier "south"] ∧
      bare.value.normalized = inBrackets.value.normalized ∧
      bare.value.normalized.sameRaw inBrackets.value.normalized = true := by
  intro types items
  have hcount : 2 ≤ items.length := by decide
  have hitems : ∀ e ∈ items, IsElement e := by decide
  obtain ⟨bare, inBrackets, hbare, -, hbrackets, -, hstored, hequal, hcoerced, hclassified⟩ :=
    spellings_store_alike types none hcount hitems
  refine ⟨hcount, hitems, bare, inBrackets, hbare, hbrackets, ?_, ?_, hstored, hequal⟩
  · rw [hcoerced]
    rfl
  · rw [hclassified]
    rfl

end LineScript
