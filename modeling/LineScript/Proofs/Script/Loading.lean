/-
# What loading makes of a text

Loading cuts a text at its line breaks, drops the comment of each line and the blanks around it, and gathers what the
directives among the lines ask for.  A line that has been cleaned so is clean: neither trimming nor cutting brings up
another comment, and it holds no line break.  So a script is a text again, which loads as itself.

* `cutAtComment_stripCommentFrom`: what is left of a line is what stands before its comment (`CutAtComment`);
* `cleanLine_eq`: carriage returns at the end of a line are blanks like others;
* `cleanLine_cleanLine`, `cleanLines_join`: clean lines stay, one by one and as a text;
* `notesFrom_eq_ok`: the notes of a script are those of its directives (`Notes.Gather`);
* `loading_normalizes`: the main statement.
-/
import LineScript.Proofs.Script.Comments
import LineScript.Proofs.Text.Blank
import Mathlib.Algebra.Ring.Parity

namespace LineScript

open Text

/-! ## Texts without comment -/

/-- Does a text have no comment: is the number of quotes before any two slashes in a row odd? -/
def CommentFree (line : List Char) : Prop :=
  ∀ before after, line = before ++ '/' :: '/' :: after → Odd (before.count '"')

/-- Does a text have no comment when it begins inside of a string, or outside? -/
def FreeFrom (inString : Bool) (line : List Char) : Prop :=
  ∀ before after, line = before ++ '/' :: '/' :: after → (inString ^^ hasOddQuotes before) = true

theorem commentFree_iff {line : List Char} : CommentFree line ↔ FreeFrom false line := by
  unfold CommentFree FreeFrom
  simp only [Bool.false_xor, hasOddQuotes, beq_iff_eq, Nat.odd_iff]

theorem freeFrom_nil (inString : Bool) : FreeFrom inString [] := by
  intro before after h
  simp at h

/-- Behind a quote, inside and outside are swapped. -/
theorem freeFrom_cons_quote {inString : Bool} {rest : List Char} :
    FreeFrom inString ('"' :: rest) ↔ FreeFrom (!inString) rest := by
  constructor
  · rintro h before after rfl
    have hfirst := h ('"' :: before) after rfl
    rw [hasOddQuotes_cons_quote] at hfirst
    simpa using hfirst
  · intro h before after hline
    cases before with
    | nil => simp at hline
    | cons c before =>
      obtain ⟨rfl, rfl⟩ := List.cons.inj hline
      rw [hasOddQuotes_cons_quote]
      simpa using h before after rfl

/-- A character that is no quote may begin a comment, and else it makes no difference. -/
theorem freeFrom_cons {inString : Bool} {c : Char} {rest : List Char} (hc : c ≠ '"') :
    FreeFrom inString (c :: rest) ↔
      (c = '/' → rest.head? = some '/' → inString = true) ∧ FreeFrom inString rest := by
  constructor
  · intro h
    constructor
    · rintro rfl hnext
      obtain ⟨after, rfl⟩ := List.head?_eq_some_iff.mp hnext
      simpa using h [] after rfl
    · rintro before after rfl
      have hfirst := h (c :: before) after rfl
      rwa [hasOddQuotes_cons hc] at hfirst
  · rintro ⟨hstart, hrest⟩ before after hline
    cases before with
    | nil =>
      obtain ⟨rfl, rfl⟩ := List.cons.inj hline
      simpa using hstart rfl rfl
    | cons d before =>
      obtain ⟨rfl, rfl⟩ := List.cons.inj hline
      rw [hasOddQuotes_cons hc]
      exact hrest before after rfl

/-! ## Cutting at the comment -/

/-- **Nothing but a comment is dropped**: what is left is all of the line, or it ends where two slashes follow
outside of all strings. -/
theorem stripCommentFrom_cut (inString : Bool) (line : List Char) :
    stripCommentFrom inString line = line ∨
      (inString ^^ hasOddQuotes (stripCommentFrom inString line)) = false ∧
        stripCommentFrom inString line ++ ['/', '/'] <+: line := by
  induction inString, line using stripCommentFrom.induct with
  | case1 => exact Or.inl rfl
  | case2 => exact Or.inl rfl
  | case3 inString d rest ih =>
    rw [stripCommentFrom_quote]
    refine ih.imp (congrArg _) (And.imp (fun houtside => ?_) (List.prefix_cons_inj _).mpr)
    rw [hasOddQuotes_cons_quote]
    simpa using houtside
  | case4 inString c d rest hquote hslash =>
    rw [stripCommentFrom, if_neg hquote, if_pos hslash]
    simp only [Bool.and_eq_true, decide_eq_true_eq, Bool.not_eq_true'] at hslash
    obtain ⟨⟨rfl, rfl⟩, rfl⟩ := hslash
    exact Or.inr ⟨rfl, rest, rfl⟩
  | case5 inString c d rest hquote hslash ih =>
    rw [stripCommentFrom, if_neg hquote, if_neg hslash]
    refine ih.imp (congrArg _) (And.imp (fun houtside => ?_) (List.prefix_cons_inj _).mpr)
    rw [hasOddQuotes_cons hquote]
    exact houtside

theorem stripCommentFrom_isFront (inString : Bool) (line : List Char) : stripCommentFrom inString line <+: line := by
  rcases stripCommentFrom_cut inString line with hall | ⟨-, hfront⟩
  · exact hall.symm ▸ List.prefix_rfl
  · exact (List.prefix_append _ _).trans hfront

/-- **No comment is left.** -/
theorem freeFrom_stripCommentFrom (inString : Bool) (line : List Char) :
    FreeFrom inString (stripCommentFrom inString line) := by
  induction inString, line using stripCommentFrom.induct with
  | case1 => exact freeFrom_nil _
  | case2 inString c =>
    rintro (_ | ⟨d, before⟩) after h <;> simp at h
  | case3 inString d rest ih =>
    rw [stripCommentFrom_quote]
    exact freeFrom_cons_quote.mpr ih
  | case4 inString c d rest hquote hslash =>
    rw [stripCommentFrom, if_neg hquote, if_pos hslash]
    exact freeFrom_nil _
  | case5 inString c d rest hquote hslash ih =>
    rw [stripCommentFrom, if_neg hquote, if_neg hslash]
    refine (freeFrom_cons hquote).mpr ⟨?_, ih⟩
    rintro rfl hnext
    -- What comes next is what came next in the line.
    obtain ⟨dropped, hline⟩ := stripCommentFrom_isFront inString (d :: rest)
    obtain ⟨after, hafter⟩ := List.head?_eq_some_iff.mp hnext
    rw [hafter] at hline
    obtain rfl : '/' = d := (List.cons.inj hline).1
    simpa using hslash

/-- A text without comment stays. -/
theorem FreeFrom.stripCommentFrom {inString : Bool} {line : List Char} (h : FreeFrom inString line) :
    stripCommentFrom inString line = line := by
  induction line generalizing inString with
  | nil => rfl
  | cons c rest ih =>
    by_cases hquote : c = '"'
    · subst hquote
      rw [stripCommentFrom_quote, ih (freeFrom_cons_quote.mp h)]
    · obtain ⟨hstart, hrest⟩ := (freeFrom_cons hquote).mp h
      rw [stripCommentFrom_keep hquote hstart, ih hrest]

/-- A line is cut at its comment: before the first two slashes in a row behind an even number of quotes. -/
structure CutAtComment (line kept : List Char) : Prop where
  dropped : kept = line ∨ Even (kept.count '"') ∧ kept ++ ['/', '/'] <+: line
  free : CommentFree kept

/-- **Lines are cut at their comments.** -/
theorem cutAtComment_stripCommentFrom (line : List Char) : CutAtComment line (stripCommentFrom false line) where
  dropped := by
    refine (stripCommentFrom_cut false line).imp_right (And.imp_left fun hodd => ?_)
    rw [Bool.false_xor, hasOddQuotes, beq_eq_false_iff_ne] at hodd
    exact Nat.even_iff.mpr (Nat.mod_two_ne_one.mp hodd)
  free := commentFree_iff.mpr (freeFrom_stripCommentFrom false line)

/-- **Dropping a comment twice drops no more.** -/
theorem stripComment_stripComment (line : String) : stripComment (stripComment line) = stripComment line := by
  unfold stripComment
  rw [String.toList_ofList, (freeFrom_stripCommentFrom false line.toList).stripCommentFrom]

/-! ## Clean lines -/

theorem count_quote_of_allBlank {cs : List Char} (h : AllBlank cs) : cs.count '"' = 0 := by
  refine List.count_eq_zero.mpr fun hmem => ?_
  have hblank : isBlank '"' = true := h _ hmem
  exact absurd hblank (by decide)

/-- Trimming brings up no comment. -/
theorem CommentFree.trimChars {line : List Char} (h : CommentFree line) : CommentFree (trimChars line) := by
  obtain ⟨front, back, hfront, -, hline⟩ := exists_trimChars line
  intro before after htrimmed
  have hodd : Odd ((front ++ before).count '"') := by
    refine h (front ++ before) (after ++ back) ?_
    rw [hline, htrimmed]
    simp
  rwa [List.count_append, count_quote_of_allBlank hfront, Nat.zero_add] at hodd

/-- What is neither quote nor slash stays behind a line, or it is dropped with the comment of the line. -/
theorem stripCommentFrom_append {back : List Char} (hback : ∀ c ∈ back, c ≠ '"' ∧ c ≠ '/') (inString : Bool)
    (line : List Char) : stripCommentFrom inString (line ++ back) = stripCommentFrom inString line ++ back ∨
      stripCommentFrom inString (line ++ back) = stripCommentFrom inString line := by
  induction line generalizing inString with
  | nil =>
    have hfree : FreeFrom inString back := by
      rintro before after rfl
      exact absurd rfl (hback '/' (by simp)).2
    exact Or.inl hfree.stripCommentFrom
  | cons c rest ih =>
    rw [List.cons_append]
    by_cases hquote : c = '"'
    · subst hquote
      rw [stripCommentFrom_quote, stripCommentFrom_quote]
      exact (ih (!inString)).imp (congrArg _) (congrArg _)
    · by_cases hcomment : c = '/' → rest.head? = some '/' → inString = true
      · have hcomment' : c = '/' → (rest ++ back).head? = some '/' → inString = true := by
          intro hc hnext
          cases rest with
          | nil =>
            obtain ⟨after, hafter⟩ := List.head?_eq_some_iff.mp hnext
            rw [List.nil_append] at hafter
            have hslash : '/' ∈ back := by
              rw [hafter]
              exact List.mem_cons_self
            exact absurd rfl (hback '/' hslash).2
          | cons d rest => exact hcomment hc hnext
        rw [stripCommentFrom_keep hquote hcomment, stripCommentFrom_keep hquote hcomment']
        exact (ih inString).imp (congrArg _) (congrArg _)
      · push Not at hcomment
        obtain ⟨rfl, hnext, hinside⟩ := hcomment
        obtain ⟨after, rfl⟩ := List.head?_eq_some_iff.mp hnext
        obtain rfl : inString = false := by simpa using hinside
        exact Or.inr (by simp [stripCommentFrom])

/-- **A line is cleaned of its comment and of the blanks around it**, carriage returns being blanks like others. -/
theorem cleanLine_eq (raw : List Char) : cleanLine raw = trim (stripComment (String.ofList raw)) := by
  let returns := raw.rtakeWhile (· == '\r')
  have hraw : dropEndWhile (· == '\r') raw ++ returns = raw := List.rdropWhile_append_rtakeWhile
  have hreturns : ∀ c ∈ returns, c = '\r' := fun c hc => by simpa using List.mem_rtakeWhile_imp hc
  have hblank : AllBlank returns := fun c hc => by rw [hreturns c hc]; decide
  have hplain : ∀ c ∈ returns, c ≠ '"' ∧ c ≠ '/' := fun c hc => by rw [hreturns c hc]; decide
  have hsame : trimChars (stripCommentFrom false raw) =
      trimChars (stripCommentFrom false (dropEndWhile (· == '\r') raw)) := by
    rcases stripCommentFrom_append hplain false (dropEndWhile (· == '\r') raw) with hkept | hdropped
    · rw [hraw] at hkept
      rw [hkept, trimChars_append_blanks hblank]
    · rw [hraw] at hdropped
      rw [hdropped]
  rw [cleanLine, trim, stripComment, String.toList_ofList, String.toList_ofList, hsame]

/-- A line that loading leaves as it is. -/
structure IsClean (line : List Char) : Prop where
  free : CommentFree line
  trimmed : trimChars line = line

theorem IsClean.cleanLine {line : List Char} (h : IsClean line) : cleanLine line = String.ofList line := by
  rw [cleanLine_eq, trim, stripComment, String.toList_ofList, String.toList_ofList,
    (commentFree_iff.mp h.free).stripCommentFrom, h.trimmed]

theorem isClean_cleanLine (raw : List Char) : IsClean (cleanLine raw).toList := by
  rw [cleanLine, String.toList_ofList]
  exact ⟨(cutAtComment_stripCommentFrom _).free.trimChars, trimChars_trimChars _⟩

/-- **Clean lines stay.** -/
theorem cleanLine_cleanLine (raw : List Char) : cleanLine (cleanLine raw).toList = cleanLine raw := by
  rw [(isClean_cleanLine raw).cleanLine, String.ofList_toList]

/-- Cleaning a line adds no character. -/
theorem mem_of_mem_cleanLine {raw : List Char} {c : Char} (h : c ∈ (cleanLine raw).toList) : c ∈ raw := by
  rw [cleanLine_eq, trim, stripComment, String.toList_ofList, String.toList_ofList, String.toList_ofList] at h
  exact (stripCommentFrom_isFront false raw).subset (mem_of_mem_trimChars h)

/-- **The lines of a text make up a text with the same lines.** -/
theorem cleanLines_join (text : String) : cleanLines (String.intercalate "\n" (cleanLines text)) = cleanLines text := by
  have hchars : (cleanLines text).map String.toList =
      (pieces '\n' text.toList).map fun raw => (cleanLine raw).toList := List.map_map
  have hbreaks : ∀ line ∈ (cleanLines text).map String.toList, '\n' ∉ line := by
    intro line hline
    rw [hchars] at hline
    obtain ⟨raw, hraw, rfl⟩ := List.mem_map.mp hline
    exact fun hmem => not_mem_of_mem_pieces hraw (mem_of_mem_cleanLine hmem)
  have hsome : (cleanLines text).map String.toList ≠ [] := by
    rw [hchars]
    exact mt List.map_eq_nil_iff.mp (pieces_ne_nil _ _)
  have hpieces : pieces '\n' (String.intercalate "\n" (cleanLines text)).toList =
      (cleanLines text).map String.toList := by
    rw [pieces_eq_splitOn, String.toList_intercalate]
    exact List.splitOn_intercalate '\n' hbreaks hsome
  rw [cleanLines, hpieces, hchars, List.map_map]
  exact List.map_congr_left fun raw _ => cleanLine_cleanLine raw

/-! ## Notes -/

namespace Directive

/-- The extension that is required. -/
def requirement? : Directive → Option String
  | require id => some id
  | _ => none

/-- The words that are ignored. -/
def ignoredWords : Directive → List String
  | ignore keywords => keywords
  | _ => []

/-- The environment that is asked for. -/
def environment? : Directive → Option String
  | environment name => some name
  | _ => none

/-- The name that is given to the script. -/
def displayName? : Directive → Option String
  | display name => some name
  | _ => none

/-- The budget that is set. -/
def budget? : Directive → Option Nat
  | budget statements => some statements
  | _ => none

/-- The strictness that is set. -/
def strict? : Directive → Option Bool
  | strict on => some on
  | _ => none

end Directive

/-- What some directives ask for together: requirements and ignored keywords gather, and of all else the last one
counts. -/
structure Notes.Gather (notes : Notes) (ds : List Directive) : Prop where
  directives : notes.directives = ds
  required : notes.required = ds.filterMap Directive.requirement?
  ignored : ∀ word, word ∈ notes.ignored ↔ ∃ d ∈ ds, word ∈ d.ignoredWords
  environment : notes.environment = (ds.filterMap Directive.environment?).getLast?
  displayName : notes.displayName = (ds.filterMap Directive.displayName?).getLast?
  budget : notes.budget = (ds.filterMap Directive.budget?).getLast?
  strict : notes.strict = (ds.filterMap Directive.strict?).getLast?.getD false

theorem Notes.gather_empty : ({} : Notes).Gather [] := by
  constructor <;> simp

/-- One directive more. -/
theorem Notes.Gather.add {notes : Notes} {ds : List Directive} (h : notes.Gather ds) (d : Directive) :
    (notes.add d).Gather (ds ++ [d]) := by
  obtain ⟨hdirectives, hrequired, hignored, henvironment, hdisplay, hbudget, hstrict⟩ := h
  cases d <;> constructor <;>
    simp [Notes.add, List.filterMap_append, Directive.requirement?, Directive.ignoredWords, Directive.environment?,
      Directive.displayName?, Directive.budget?, Directive.strict?, mem_foldl_withElement, or_and_right, exists_or, *]

/-- **The notes of some lines are those of their directives, in order.** -/
theorem notesFrom_eq_ok {notes notes' : Notes} {number : Nat} {lines : List String} {ds : List Directive}
    (h : notesFrom notes number lines = .ok notes') (hnotes : notes.Gather ds) :
    ∃ more, (lines.filter isDirective).map Directive.ofLine? = more.map .ok ∧
      notes' = more.foldl Notes.add notes ∧ notes'.Gather (ds ++ more) := by
  induction lines generalizing notes number ds with
  | nil =>
    obtain rfl : notes = notes' := Except.ok.inj h
    exact ⟨[], rfl, rfl, by simpa using hnotes⟩
  | cons line rest ih =>
    rw [notesFrom] at h
    split at h
    · rename_i hdirective
      cases hread : Directive.ofLine? line with
      | error f =>
        rw [hread] at h
        cases h
      | ok d =>
        rw [hread] at h
        obtain ⟨more, hmore, hfold, hgather⟩ := ih h (hnotes.add d)
        refine ⟨d :: more, ?_, hfold, by simpa using hgather⟩
        rw [List.filter_cons_of_pos hdirective, List.map_cons, hread, hmore, List.map_cons]
    · rename_i hdirective
      obtain ⟨more, hmore, hrest⟩ := ih h hnotes
      refine ⟨more, ?_, hrest⟩
      rw [List.filter_cons_of_neg hdirective, hmore]

/-! ## Scripts -/

/-- A script that has been read has the lines of its text and their notes. -/
theorem ofText?_eq_ok {text : String} {script : Script} (h : Script.ofText? text = .ok script) :
    script.lines.toList = cleanLines text ∧ notesFrom {} 1 (cleanLines text) = .ok script.notes := by
  unfold Script.ofText? at h
  dsimp only at h
  cases hnotes : notesFrom {} 1 (cleanLines text) with
  | error f =>
    rw [hnotes] at h
    cases h
  | ok notes =>
    rw [hnotes] at h
    cases h
    exact ⟨rfl, rfl⟩

/-- **Loading normalizes a text.**  A script that is read from a text

* has one line more than the text has line breaks, each being the raw line without its comment and without the blanks
  around it; comments begin at the first two slashes in a row behind an even number of quotes;
* has no comment in its lines and no blanks around them;
* is a text again, which is read as the same script, as cutting comments a second time cuts nothing more;
* notes what its directives ask for, in order. -/
theorem loading_normalizes {text : String} {script : Script} (h : Script.ofText? text = .ok script) :
    script.lines.size = text.toList.count '\n' + 1 ∧
    script.lines.toList = (text.toList.splitOn '\n').map (fun raw => trim (stripComment (String.ofList raw))) ∧
    (∀ line : String, CutAtComment line.toList (stripComment line).toList) ∧
    (∀ line ∈ script.lines, CommentFree line.toList ∧ trim line = line) ∧
    Script.ofText? (String.intercalate "\n" script.lines.toList) = .ok script ∧
    (∀ line : String, stripComment (stripComment line) = stripComment line) ∧
    (script.lines.toList.filter isDirective).map Directive.ofLine? = script.notes.directives.map .ok ∧
    script.notes = script.notes.directives.foldl Notes.add {} ∧
    script.notes.Gather script.notes.directives := by
  obtain ⟨hlines, hnotes⟩ := ofText?_eq_ok h
  obtain ⟨directives, hread, hfold, hgather⟩ := notesFrom_eq_ok hnotes Notes.gather_empty
  have hdirectives : script.notes.directives = directives := hgather.directives
  refine ⟨?_, ?_, fun line => ?_, ?_, ?_, stripComment_stripComment, ?_, ?_, ?_⟩
  · rw [← length_pieces, ← Array.length_toList, hlines, cleanLines, List.length_map]
  · rw [hlines, cleanLines, pieces_eq_splitOn]
    exact List.map_congr_left fun raw _ => cleanLine_eq raw
  · rw [stripComment, String.toList_ofList]
    exact cutAtComment_stripCommentFrom line.toList
  · intro line hline
    rw [← Array.mem_toList_iff, hlines] at hline
    obtain ⟨raw, -, rfl⟩ := List.mem_map.mp hline
    have hclean := isClean_cleanLine raw
    exact ⟨hclean.free, by rw [trim, hclean.trimmed, String.ofList_toList]⟩
  · rw [← h, hlines]
    unfold Script.ofText?
    rw [cleanLines_join]
  · rw [hlines, hread, hdirectives]
  · rw [hdirectives]
    exact hfold
  · rw [hdirectives]
    exact hgather

/-- A text with comments, slashes in a string, carriage returns and directives that are taken back. -/
def mixedText : String := "[strict] // for now\r\n log \"a // b\" // c \r\n\n[ignore log set]\r\n[strict off]"

/-- What it is read as. -/
def mixedScript : Script where
  lines := #["[strict]", "log \"a // b\"", "", "[ignore log set]", "[strict off]"]
  notes := {
    ignored := ["log", "set"]
    directives := [.strict true, .ignore ["log", "set"], .strict false] }

/-- It is read as the same script again. -/
theorem loading_normalizes_of_mixed : Script.ofText? mixedText = .ok mixedScript ∧
    Script.ofText? (String.intercalate "\n" mixedScript.lines.toList) = .ok mixedScript ∧
    mixedScript.notes.Gather [.strict true, .ignore ["log", "set"], .strict false] := by
  have hread : Script.ofText? mixedText = .ok mixedScript := by
    have hsame : (Script.ofText? mixedText).toOption = some mixedScript := by decide +kernel
    cases h : Script.ofText? mixedText with
    | error f =>
      rw [h] at hsame
      cases hsame
    | ok script =>
      rw [h] at hsame
      exact congrArg _ (Option.some.inj hsame)
  obtain ⟨-, -, -, -, hagain, -, -, -, hgather⟩ := loading_normalizes hread
  exact ⟨hread, hagain, hgather⟩

end LineScript
