/-
# Writing tokens out again

A line is written out from its tokens, joined by single spaces (`render`): a string gets its quotes back, every other
token stands as its text.  What is written out need not be the line, since blanks and the marks of references are
gone, but it has the same tokens (`tokenizeInert_render`).

Each token comes from one part of the line and is written as a part of its own (`Token.WrittenBy`): a reference loses
its mark, all other parts stay.  A blank ends every part, so the parts may stand in any order.
-/
import LineScript.Proofs.Script.Grammar

namespace LineScript

open LineScript.Text

/-- How a token is written. -/
def Token.render (t : Token) : String :=
  match t.value with
  | .text .string _ => between "\"" t.text.toList "\""
  | _ => t.text

/-- Some tokens as a line, joined by single spaces. -/
def render (tokens : List Token) : String := String.intercalate " " (tokens.map Token.render)

theorem toList_between (opening closing : String) (inner : List Char) :
    (between opening inner closing).toList = opening.toList ++ inner ++ closing.toList := by
  simp [between]

/-! ## Tokens of words -/

/-- The value of a bare word is no string. -/
theorem coerce_ne_string (types : List WordType) (s text : String) : coerce types s ≠ .string text := by
  unfold coerce
  split
  · simp
  · unfold coerceSingle
    split_ifs
    · simp
    · simp
    · simp
    · split
      · simp
      · split <;> simp

theorem classify_eq_text {types : List WordType} {v : Value} {tag : Tag} {text : String}
    (h : classify types v = .text tag text) : v = .text tag text := by
  unfold classify at h
  split at h
  · split at h
    · cases h
    · split at h <;> cases h
  · exact h

/-- A bare token is written as its text. -/
theorem render_bare (types : List WordType) (s text : String) : Token.render ⟨wordValue types s, text⟩ = text := by
  unfold Token.render
  split
  · rename_i inner hvalue
    exact absurd (classify_eq_text hvalue) (coerce_ne_string types s inner)
  · rfl

/-! ## Tokens and their parts -/

/-- Is this token the one of this part, and written as the part is? -/
structure Token.WrittenBy (types : List WordType) (t : Token) (p : Part) : Prop where
  regular : p.Regular
  tokens : tokensOf types [p] = [t]
  chars : t.render.toList = p.chars

/-- **Every part but a blank has a token, which is written as a part again.** -/
theorem Part.token_writtenBy (types : List WordType) {p : Part} (hp : p.Regular) {t : Token}
    (ht : p.token? types = some t) : ∃ q, t.WrittenBy types q := by
  cases p with
  | blank c => cases ht
  | bare word =>
    cases ht
    refine ⟨.bare word, hp, rfl, ?_⟩
    show (Token.render ⟨wordValue types (String.ofList word), String.ofList word⟩).toList = word
    rw [render_bare, String.toList_ofList]
  | quoted text =>
    cases ht
    refine ⟨.quoted text, hp, rfl, ?_⟩
    show (between "\"" (String.ofList text).toList "\"").toList = '"' :: text ++ ['"']
    rw [String.toList_ofList]
    exact toList_between "\"" "\"" text
  | group inner =>
    cases ht
    refine ⟨.group inner, hp, rfl, ?_⟩
    exact String.toList_ofList
  | reference mark raw =>
    cases ht
    -- The mark is gone, and the name says the same without it.
    obtain ⟨-, hraw⟩ := hp
    refine ⟨.reference [] raw, ⟨by simp, hraw⟩, rfl, ?_⟩
    exact String.toList_ofList

theorem exists_writtenBy (types : List WordType) {parts : List Part} (hregular : ∀ p ∈ parts, p.Regular) :
    ∀ t ∈ tokensOf types parts, ∃ p, t.WrittenBy types p := by
  intro t ht
  obtain ⟨p, hp, htoken⟩ := List.mem_filterMap.mp ht
  exact Part.token_writtenBy types (hregular p hp) htoken

/-! ## Joined by spaces -/

/-- Two lines with a space between them have the parts of both. -/
theorem WrittenAs.append_space {front back : List Char} {parts more : List Part} (h : WrittenAs front parts)
    (h' : WrittenAs back more) : WrittenAs (front ++ ' ' :: back) (parts ++ .blank ' ' :: more) where
  spelled := by simp [h.spelled, h'.spelled, Part.chars]
  regular := by
    intro p hp
    rcases List.mem_append.mp hp with hfront | hback
    · exact h.regular p hfront
    · rcases List.mem_cons.mp hback with rfl | hmore
      · exact rfl
      · exact h'.regular p hmore
  maximal := by
    refine List.isChain_append.mpr ⟨h.maximal, List.isChain_cons.mpr ⟨?_, h'.maximal⟩, ?_⟩
    · intro q _
      exact trivial
    · intro p _ q hq
      obtain rfl : Part.blank ' ' = q := by simpa using hq
      cases p <;> exact trivial

theorem WrittenAs.single {p : Part} (hp : p.Regular) : WrittenAs p.chars [p] := by
  simpa using WrittenAs.nil.cons hp (by simp)

/-- A space between two lists of parts has no token. -/
theorem tokensOf_append_space (types : List WordType) (parts more : List Part) :
    tokensOf types (parts ++ .blank ' ' :: more) = tokensOf types parts ++ tokensOf types more := by
  have hblank : (Part.blank ' ').token? types = none := rfl
  simp [tokensOf, hblank]

/-- **Tokens that are written by parts have a line.** -/
theorem exists_parts_of_render {types : List WordType} {tokens : List Token}
    (h : ∀ t ∈ tokens, ∃ p, t.WrittenBy types p) :
    ∃ parts, WrittenAs (render tokens).toList parts ∧ tokensOf types parts = tokens := by
  induction tokens with
  | nil => exact ⟨[], by simpa [render] using WrittenAs.nil, rfl⟩
  | cons t rest ih =>
    obtain ⟨⟨p, hp⟩, hrest⟩ := List.forall_mem_cons.mp h
    have hfirst : WrittenAs t.render.toList [p] := hp.chars ▸ WrittenAs.single hp.regular
    cases rest with
    | nil => exact ⟨[p], by simpa [render] using hfirst, hp.tokens⟩
    | cons u rest =>
      obtain ⟨parts, hparts, htokens⟩ := ih hrest
      refine ⟨[p] ++ .blank ' ' :: parts, ?_, ?_⟩
      · have hjoined : (render (t :: u :: rest)).toList = t.render.toList ++ ' ' :: (render (u :: rest)).toList := by
          simp [render]
        rw [hjoined]
        exact hfirst.append_space hparts
      · rw [tokensOf_append_space, hp.tokens, htokens, List.singleton_append]

/-- **Reading undoes writing out.**  The tokens of an unread line, written out with single spaces between them, are a
line with the same tokens. -/
theorem tokenizeInert_render {types : List WordType} {line : String} {tokens : List Token}
    (h : tokenizeInert types line = .ok tokens) : tokenizeInert types (render tokens) = .ok tokens := by
  obtain ⟨parts, hparts, rfl⟩ := tokenizeInert_iff.mp h
  obtain ⟨written, hwritten, hsame⟩ := exists_parts_of_render (exists_writtenBy types hparts.regular)
  exact tokenizeInert_iff.mpr ⟨written, hwritten, hsame.symm⟩

/-- A line with all kinds of parts and no blank between them: the line written out has blanks and lacks the mark. -/
theorem tokenizeInert_render_of_dense_line :
    let tokens : List Token := [⟨.identifier "log", "log"⟩, ⟨.string "a b", "a b"⟩,
      ⟨.group [.identifier "c", .identifier ""], "[c|]"⟩, ⟨.identifier "\\x\\", "\\x\\"⟩]
    tokenizeInert [] "log\"a b\"[c|]-\\x\\" = .ok tokens ∧ render tokens = "log \"a b\" [c|] \\x\\" ∧
      tokenizeInert [] (render tokens) = .ok tokens := by
  intro tokens
  have hline : tokenizeInert [] "log\"a b\"[c|]-\\x\\" = .ok tokens := rfl
  exact ⟨hline, rfl, tokenizeInert_render hline⟩

end LineScript
