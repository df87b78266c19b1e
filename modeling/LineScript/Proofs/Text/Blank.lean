/-
# Laws of pieces and of trimming

What stands between separators, and what is left when blanks are dropped from both ends.

* `pieces_eq_splitOn`, `length_pieces`, `not_mem_of_mem_pieces`: the pieces of a text;
* `exists_trimChars`, `trim_trim`, `trimChars_append_blanks`: a text is its trimmed text between blanks,
  trimming it again changes nothing, and blanks behind it make no difference;
* `mem_foldl_withElement`: the elements of a list that is filled without repetition.
-/
import LineScript.Text.Blank
import Mathlib.Data.List.DropRight

namespace LineScript.Text

/-! ## Pieces -/

section Pieces

variable {sep : Char} {cs piece : List Char}

/-- Pieces are what splitting at the separator gives. -/
theorem pieces_eq_splitOn (sep : Char) (cs : List Char) : pieces sep cs = cs.splitOn sep := by
  induction cs with
  | nil => rfl
  | cons c rest ih =>
    rw [pieces, List.splitOn, List.splitOnP_cons_eq_if_modifyHead, ih]
    by_cases hc : c = sep
    · rw [if_pos hc, if_pos (by simpa using hc)]
      rfl
    · rw [if_neg hc, if_neg (by simpa using hc)]
      show _ = (rest.splitOn sep).modifyHead (List.cons c)
      cases hrest : rest.splitOn sep with
      | nil => exact absurd hrest (List.splitOnP_ne_nil _ _)
      | cons piece more => rfl

/-- There is one piece more than separators. -/
theorem length_pieces (sep : Char) (cs : List Char) : (pieces sep cs).length = cs.count sep + 1 := by
  induction cs with
  | nil => rfl
  | cons c rest ih =>
    rw [pieces]
    by_cases hc : c = sep
    · rw [if_pos hc, List.length_cons, ih, hc, List.count_cons_self]
    · rw [if_neg hc, List.count_cons_of_ne hc, ← ih]
      cases hrest : pieces sep rest with
      | nil => exact absurd hrest (pieces_ne_nil sep rest)
      | cons piece more => rfl

/-- No separator is in a piece. -/
theorem not_mem_of_mem_pieces (h : piece ∈ pieces sep cs) : sep ∉ piece := by
  induction cs generalizing piece with
  | nil =>
    rw [pieces_nil, List.mem_singleton] at h
    rw [h]
    exact List.not_mem_nil
  | cons c rest ih =>
    rw [pieces] at h
    by_cases hc : c = sep
    · rw [if_pos hc] at h
      rcases List.mem_cons.mp h with rfl | h
      · exact List.not_mem_nil
      · exact ih h
    · rw [if_neg hc] at h
      cases hrest : pieces sep rest with
      | nil => exact absurd hrest (pieces_ne_nil sep rest)
      | cons first more =>
        rw [hrest] at h ih
        rcases List.mem_cons.mp h with rfl | h
        · intro hmem
          exact (List.mem_cons.mp hmem).elim (Ne.symm hc) (ih List.mem_cons_self)
        · exact ih (List.mem_cons_of_mem first h)

end Pieces

/-! ## Trimming -/

/-- Is there nothing but blanks? -/
def AllBlank (cs : List Char) : Prop := ∀ c ∈ cs, isBlank c = true

variable {cs back : List Char}

/-- **A text is its trimmed text between blanks.** -/
theorem exists_trimChars (cs : List Char) :
    ∃ front back, AllBlank front ∧ AllBlank back ∧ cs = front ++ (trimChars cs ++ back) := by
  refine ⟨cs.takeWhile isBlank, (cs.dropWhile isBlank).rtakeWhile isBlank, fun c hc => List.mem_takeWhile_imp hc,
    fun c hc => List.mem_rtakeWhile_imp hc, ?_⟩
  have hback : trimChars cs ++ (cs.dropWhile isBlank).rtakeWhile isBlank = cs.dropWhile isBlank :=
    List.rdropWhile_append_rtakeWhile
  rw [hback, List.takeWhile_append_dropWhile]

/-- What is trimmed is a part of the text. -/
theorem mem_of_mem_trimChars {c : Char} (h : c ∈ trimChars cs) : c ∈ cs := by
  obtain ⟨front, back, -, -, hcs⟩ := exists_trimChars cs
  rw [hcs]
  exact List.mem_append_right front (List.mem_append_left back h)

/-- Trimming once more changes nothing. -/
theorem trimChars_trimChars (cs : List Char) : trimChars (trimChars cs) = trimChars cs := by
  have hfirst : (trimChars cs).dropWhile isBlank = trimChars cs := by
    refine List.dropWhile_eq_self_iff.mpr fun hpos => ?_
    -- The first character is that of the text without its leading blanks.
    have hfront : trimChars cs <+: cs.dropWhile isBlank := List.rdropWhile_prefix isBlank _
    have hlong : 0 < (cs.dropWhile isBlank).length := Nat.lt_of_lt_of_le hpos hfront.length_le
    rw [hfront.getElem hpos]
    exact List.dropWhile_get_zero_not isBlank cs hlong
  rw [trimChars, hfirst]
  exact List.rdropWhile_idempotent isBlank _

theorem trim_trim (s : String) : trim (trim s) = trim s := by
  unfold trim
  rw [String.toList_ofList, trimChars_trimChars]

/-- Blanks behind a text are trimmed with it. -/
theorem trimChars_append_blanks (h : AllBlank back) : trimChars (cs ++ back) = trimChars cs := by
  have hdrop : ∀ front : List Char, dropEndWhile isBlank (front ++ back) = dropEndWhile isBlank front := by
    intro front
    unfold dropEndWhile
    rw [List.reverse_append, List.dropWhile_append_of_pos fun c hc => h c (List.mem_reverse.mp hc)]
  unfold trimChars
  rw [List.dropWhile_append]
  split
  · rename_i hempty
    rw [List.isEmpty_iff.mp hempty, List.dropWhile_eq_nil_iff.mpr h]
  · exact hdrop _

/-! ## Lists without repetition -/

theorem mem_withElement {xs : List String} {x y : String} : y ∈ withElement xs x ↔ y ∈ xs ∨ y = x := by
  unfold withElement
  split
  · rename_i hmem
    exact ⟨Or.inl, fun h => h.elim id fun heq => heq ▸ hmem⟩
  · simp

/-- Adding elements one by one gives a list with all of them. -/
theorem mem_foldl_withElement {xs ys : List String} {y : String} :
    y ∈ ys.foldl withElement xs ↔ y ∈ xs ∨ y ∈ ys := by
  induction ys generalizing xs with
  | nil => simp
  | cons first rest ih => rw [List.foldl_cons, ih, mem_withElement, List.mem_cons, or_assoc]

end LineScript.Text
