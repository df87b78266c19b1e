/-
# Comments and quotes

Two readers decide where the strings of a line are.  The one that drops comments knows nothing but quotes: every quote
opens or closes a string (`stripCommentFrom_append_space`).  The one that cuts the line into tokens also knows groups
and references, in which a quote is a character like any other (`Part.strayQuotes`).

They agree on a statement exactly if its groups and references hold an even number of quotes: then a comment behind
the statement is dropped and the tokens stay, else the comment is taken for the inside of a string and becomes part of
the statement (`tokenizeInert_stripComment_iff`).
-/
import LineScript.Proofs.Script.Rendering
import Mathlib.Algebra.Group.Nat.Even

namespace LineScript

open LineScript.Text

/-! ## Dropping a comment -/

/-- Does a text hold an odd number of quotes? -/
def hasOddQuotes (chars : List Char) : Bool := chars.count '"' % 2 == 1

@[simp] theorem hasOddQuotes_nil : hasOddQuotes [] = false := rfl

theorem hasOddQuotes_cons_quote (chars : List Char) : hasOddQuotes ('"' :: chars) = !hasOddQuotes chars := by
  unfold hasOddQuotes
  rw [List.count_cons_self]
  rcases Nat.mod_two_eq_zero_or_one (chars.count '"') with h | h
  · have hnext : (chars.count '"' + 1) % 2 = 1 := by omega
    rw [h, hnext]
    rfl
  · have hnext : (chars.count '"' + 1) % 2 = 0 := by omega
    rw [h, hnext]
    rfl

theorem hasOddQuotes_cons {c : Char} (h : c ≠ '"') (chars : List Char) :
    hasOddQuotes (c :: chars) = hasOddQuotes chars := by
  unfold hasOddQuotes
  rw [List.count_cons_of_ne h]

/-- A character that begins no comment stays. -/
theorem stripCommentFrom_keep {inString : Bool} {c : Char} {rest : List Char} (hquote : c ≠ '"')
    (hcomment : c = '/' → rest.head? = some '/' → inString = true) :
    stripCommentFrom inString (c :: rest) = c :: stripCommentFrom inString rest := by
  cases rest with
  | nil => simp [stripCommentFrom]
  | cons d rest =>
    have hnone : (c = '/' && d = '/' && !inString) = false := by
      by_contra hstarts
      simp only [Bool.not_eq_false, Bool.and_eq_true, decide_eq_true_eq, Bool.not_eq_true'] at hstarts
      obtain ⟨⟨hc, hd⟩, houtside⟩ := hstarts
      rw [hcomment hc (by rw [hd]; rfl)] at houtside
      cases houtside
    rw [stripCommentFrom, if_neg hquote, hnone]
    rfl

/-- **A text without comment stays**, and behind it the quotes of the text say whether a string is open. -/
theorem stripCommentFrom_append_space {text : List Char} (hfree : ¬ ['/', '/'] <:+: text) (inString : Bool)
    (rest : List Char) :
    stripCommentFrom inString (text ++ ' ' :: rest) =
      text ++ ' ' :: stripCommentFrom (inString ^^ hasOddQuotes text) rest := by
  induction text generalizing inString with
  | nil =>
    have hspace : stripCommentFrom inString (' ' :: rest) = ' ' :: stripCommentFrom inString rest :=
      stripCommentFrom_keep (by decide) fun h => absurd h (by decide)
    simpa using hspace
  | cons c text ih =>
    have htext : ¬ ['/', '/'] <:+: text := fun h => hfree (h.trans (List.suffix_cons c text).isInfix)
    by_cases hquote : c = '"'
    · subst hquote
      rw [List.cons_append, stripCommentFrom_quote, ih htext, hasOddQuotes_cons_quote]
      simp
    · have hcomment : c = '/' → (text ++ ' ' :: rest).head? = some '/' → inString = true := by
        rintro rfl hnext
        -- Two slashes next to each other would be a comment of the text.
        cases text with
        | nil => simp at hnext
        | cons d text =>
          obtain rfl : d = '/' := by simpa using hnext
          exact absurd ⟨[], text, rfl⟩ hfree
      rw [List.cons_append, stripCommentFrom_keep hquote hcomment, ih htext, hasOddQuotes_cons hquote]
      rfl

/-- A comment behind a text is dropped if the quotes of the text close all its strings. -/
theorem stripComment_of_even {s : String} (hfree : ¬ ['/', '/'] <:+: s.toList) (heven : hasOddQuotes s.toList = false)
    (comment : String) : stripComment (s ++ " //" ++ comment) = s ++ " " ++ "" := by
  have hchars : (s ++ " //" ++ comment).toList = s.toList ++ ' ' :: '/' :: '/' :: comment.toList := by simp
  have hdropped : stripCommentFrom false ('/' :: '/' :: comment.toList) = [] := by simp [stripCommentFrom]
  rw [stripComment, hchars, stripCommentFrom_append_space hfree, heven, Bool.xor_false, hdropped]
  simp

/-- A comment behind a text begins inside a string if the quotes of the text leave one open, and its first slash
stays. -/
theorem stripComment_of_odd {s : String} (hfree : ¬ ['/', '/'] <:+: s.toList) (hodd : hasOddQuotes s.toList = true)
    (comment : String) :
    ∃ kept : String, stripComment (s ++ " //" ++ comment) = s ++ " " ++ kept ∧ '/' ∈ kept.toList := by
  have hchars : (s ++ " //" ++ comment).toList = s.toList ++ ' ' :: '/' :: '/' :: comment.toList := by simp
  have hkept : stripCommentFrom true ('/' :: '/' :: comment.toList) =
      '/' :: stripCommentFrom true ('/' :: comment.toList) :=
    stripCommentFrom_inString (by decide) _
  refine ⟨String.ofList ('/' :: stripCommentFrom true ('/' :: comment.toList)), ?_, by simp⟩
  rw [stripComment, hchars, stripCommentFrom_append_space hfree, hodd, Bool.false_xor, hkept]
  simp [← String.toList_inj]

/-! ## Quotes of a statement -/

/-- The quotes of a part that are no string's: those in a group or in a reference. -/
def Part.strayQuotes : Part → Nat
  | group inner => inner.count '"'
  | reference _ raw => raw.count '"'
  | _ => 0

/-- The quotes of some parts that are no string's. -/
def strayQuotes : List Part → Nat
  | [] => 0
  | p :: parts => p.strayQuotes + strayQuotes parts

/-- The quotes of strings come in pairs. -/
theorem Part.count_chars {p : Part} (hp : p.Regular) : p.chars.count '"' % 2 = p.strayQuotes % 2 := by
  cases p with
  | blank c =>
    have hc : c ≠ '"' := by
      rintro rfl
      have hblank : isBlank '"' = true := hp
      exact absurd hblank (by decide)
    simp [Part.chars, strayQuotes, hc]
  | bare word =>
    have hnone : word.count '"' = 0 := List.count_eq_zero.mpr fun h => (hp.2 _ h).2.1 rfl
    simp [Part.chars, strayQuotes, hnone]
  | quoted text =>
    have hnone : text.count '"' = 0 := List.count_eq_zero.mpr hp
    simp [Part.chars, strayQuotes, hnone]
  | group inner => simp [Part.chars, strayQuotes]
  | reference mark raw =>
    have hnone : mark.count '"' = 0 :=
      List.count_eq_zero.mpr fun h => ((isBareChar_of_mark hp.1).1 _ h).2.1 rfl
    simp [Part.chars, strayQuotes, hnone]

theorem count_spelling {parts : List Part} (hregular : ∀ p ∈ parts, p.Regular) :
    (spelling parts).count '"' % 2 = strayQuotes parts % 2 := by
  induction parts with
  | nil => rfl
  | cons p parts ih =>
    obtain ⟨hp, hparts⟩ := List.forall_mem_cons.mp hregular
    have hfirst := Part.count_chars hp
    have hrest := ih hparts
    rw [spelling_cons, List.count_append, strayQuotes]
    omega

theorem WrittenAs.hasOddQuotes_iff {chars : List Char} {parts : List Part} (h : WrittenAs chars parts) :
    hasOddQuotes chars = true ↔ ¬ Even (strayQuotes parts) := by
  have hcount := count_spelling h.regular
  rw [← h.spelled] at hcount
  rw [hasOddQuotes, Nat.even_iff, hcount, beq_iff_eq]
  omega

/-! ## Tokens behind a space -/

/-- **A space separates**: the tokens of a line come before those of what follows. -/
theorem tokenizeInert_append_space {types : List WordType} {s : String} {tokens : List Token}
    (h : tokenizeInert types s = .ok tokens) (rest : String) :
    tokenizeInert types (s ++ " " ++ rest) = (tokenizeInert types rest).map (tokens ++ ·) := by
  obtain ⟨parts, hparts, rfl⟩ := tokenizeInert_iff.mp h
  have hblank : scanFrom .plain [] (' ' :: rest.toList) = scan rest := by
    simp [scan, scanFrom, isBlank, Scan.pushBare]
  have hends : EndsWord (' ' :: rest.toList) := Or.inl (by decide)
  have hscan : scan (s ++ " " ++ rest) = ⟨parts.filterMap Part.lexeme? ++ (scan rest).lexemes, (scan rest).fault⟩ := by
    have hread := scanFrom_spelling_append hparts.regular hparts.maximal hends
    rw [← hparts.spelled, hblank] at hread
    rw [← hread]
    simp [scan]
  rw [tokenizeInert_eq, tokenizeInert_eq, hscan]
  cases (scan rest).fault with
  | some f => rfl
  | none => simp [Except.map, tokensOf_eq]

/-- A line has no tokens only if it is blank. -/
theorem isBlank_of_tokenizeInert_nil {types : List WordType} {line : String} (h : tokenizeInert types line = .ok []) :
    ∀ c ∈ line.toList, isBlank c = true := by
  obtain ⟨parts, hparts, hnone⟩ := tokenizeInert_iff.mp h
  have hblanks : ∀ p ∈ parts, p.token? types = none := List.filterMap_eq_nil_iff.mp hnone.symm
  intro c hc
  rw [hparts.spelled, spelling, List.mem_flatMap] at hc
  obtain ⟨p, hp, hmem⟩ := hc
  cases p with
  | blank d =>
    obtain rfl : c = d := by simpa [Part.chars] using hmem
    exact hparts.regular _ hp
  | bare | quoted | group | reference => cases hblanks _ hp

/-- **When a comment changes nothing.**  A statement without comment has the same tokens with a comment behind it if
and only if its groups and references hold an even number of quotes. -/
theorem tokenizeInert_stripComment_iff {types : List WordType} {s : String} {tokens : List Token}
    (hs : tokenizeInert types s = .ok tokens) (hfree : ¬ ['/', '/'] <:+: s.toList) :
    (∃ parts, WrittenAs s.toList parts) ∧
    ∀ parts, WrittenAs s.toList parts → ∀ comment : String,
      (tokenizeInert types (stripComment (s ++ " //" ++ comment)) = .ok tokens ↔ Even (strayQuotes parts)) := by
  constructor
  · obtain ⟨parts, hparts, -⟩ := tokenizeInert_iff.mp hs
    exact ⟨parts, hparts⟩
  intro parts hparts comment
  by_cases hodd : hasOddQuotes s.toList = true
  · obtain ⟨kept, hkept, hslash⟩ := stripComment_of_odd hfree hodd comment
    rw [hkept, tokenizeInert_append_space hs]
    refine iff_of_false ?_ (hparts.hasOddQuotes_iff.mp hodd)
    intro hsame
    -- What is kept of the comment would have no tokens, but a slash is not blank.
    cases hrest : tokenizeInert types kept with
    | error f => simp [hrest, Except.map] at hsame
    | ok more =>
      have hnil : more = [] := by simpa [hrest, Except.map] using hsame
      rw [hnil] at hrest
      exact absurd (isBlank_of_tokenizeInert_nil hrest '/' hslash) (by decide)
  · have heven : Even (strayQuotes parts) := not_not.mp fun h => hodd (hparts.hasOddQuotes_iff.mpr h)
    have hempty : tokenizeInert types "" = .ok [] := rfl
    rw [stripComment_of_even hfree (by simpa using hodd), tokenizeInert_append_space hs, hempty]
    refine iff_of_true ?_ heven
    simp [Except.map]

/-- A statement with two quotes in its group and a string with slashes: the comment is dropped. -/
theorem tokenizeInert_stripComment_of_paired_quotes :
    let s := "log [\"|\"] \"a/b\""
    let tokens : List Token := [⟨.identifier "log", "log"⟩, ⟨.group [.identifier "\"", .identifier "\""], "[\"|\"]"⟩,
      ⟨.string "a/b", "a/b"⟩]
    tokenizeInert [] s = .ok tokens ∧ ¬ ['/', '/'] <:+: s.toList ∧
      tokenizeInert [] (stripComment (s ++ " //" ++ " say \"x\"")) = .ok tokens := by
  intro s tokens
  have hs : tokenizeInert [] "log [\"|\"] \"a/b\"" = .ok tokens := rfl
  have hfree : ¬ ['/', '/'] <:+: s.toList := by decide +kernel
  have hparts : WrittenAs s.toList [.bare ['l', 'o', 'g'], .blank ' ', .group ['"', '|', '"'], .blank ' ',
      .quoted ['a', '/', 'b']] := by
    refine ⟨by decide +kernel, ?_, ?_⟩
    · simp [Part.Regular, IsBareChar, isBlank]
    · simp [Part.MayPrecede]
  have heven : Even (strayQuotes [.bare ['l', 'o', 'g'], .blank ' ', .group ['"', '|', '"'], .blank ' ',
      .quoted ['a', '/', 'b']]) := by decide
  exact ⟨hs, hfree, ((tokenizeInert_stripComment_iff hs hfree).2 _ hparts _).mpr heven⟩

/-- A group with one quote: the comment behind the statement becomes part of it. -/
theorem comment_stays_behind_group_quote :
    let s := "log [\"]"
    let tokens : List Token := [⟨.identifier "log", "log"⟩, ⟨.group [.identifier "\""], "[\"]"⟩]
    tokenizeInert [] s = .ok tokens ∧ ¬ ['/', '/'] <:+: s.toList ∧
      stripComment (s ++ " //" ++ " note") = s ++ " //" ++ " note" ∧
      tokenizeInert [] (stripComment (s ++ " //" ++ " note")) =
        .ok (tokens ++ [⟨.identifier "//", "//"⟩, ⟨.identifier "note", "note"⟩]) ∧
      tokenizeInert [] (stripComment (s ++ " //" ++ " note")) ≠ .ok tokens := by
  intro s tokens
  have hs : tokenizeInert [] "log [\"]" = .ok tokens := rfl
  have hkept : stripComment (s ++ " //" ++ " note") = "log [\"] // note" := by decide +kernel
  have hread : tokenizeInert [] "log [\"] // note" =
      .ok (tokens ++ [⟨.identifier "//", "//"⟩, ⟨.identifier "note", "note"⟩]) := rfl
  rw [hkept, hread]
  refine ⟨hs, by decide +kernel, by decide +kernel, rfl, ?_⟩
  intro hsame
  have hlength := congrArg List.length (Except.ok.inj hsame)
  simp at hlength

end LineScript
