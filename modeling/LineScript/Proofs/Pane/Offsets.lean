/-
# Cutting a line by offsets

The pieces of a coloured line are lists of characters.  A line can be cut without collecting any: it is read once, from
left to right, and a piece is kept as the offsets, in bytes, at which it starts and stops (`Cut`).  Of the word that is
being read only the start is known (`cutsFrom?`), and at an opening mark the same reading is used up to find the mark
that closes (`closing`).  What is sliced out of the line at these offsets has to start and to stop between characters
(`slice?`).

* `slice?_eq`: a slice between characters;
* `agrees_nil`, `agrees_comment`, `agrees_mark`, `agrees_blank`, `agrees_word`: one step of the reading;
* `cutsFrom?_eq`: the reading gives the pieces where they stand;
* `highlighting_loses_nothing`: the main statement.
-/
import LineScript.Pane.Highlight
import Mathlib.Data.String.Basic

namespace LineScript.Pane

open String (utf8Len)
open LineScript.Text LineScript.Screen

/-! ## Slices -/

/-- The text between two offsets in bytes; `none` if they are not in order, or if one of them is not between two
characters, before the first or behind the last. -/
def slice? (line : String) (start stop : Nat) : Option String :=
  if start ≤ stop ∧ String.Pos.Raw.IsValid line ⟨start⟩ ∧ String.Pos.Raw.IsValid line ⟨stop⟩ then
    some (String.Pos.Raw.extract line ⟨start⟩ ⟨stop⟩)
  else none

/-- Behind characters at the beginning of a line is a place to slice. -/
theorem isValid_utf8Len {line : String} {pre post : List Char} (hline : line.toList = pre ++ post) :
    String.Pos.Raw.IsValid line ⟨utf8Len pre⟩ := by
  rw [String.Pos.Raw.isValid_iff_exists_append]
  refine ⟨String.ofList pre, String.ofList post, ?_, ?_⟩
  · rw [← String.ofList_append, ← hline, String.ofList_toList]
  · rw [String.rawEndPos_ofList]

/-- **What stands between two parts of a line is a slice of it.** -/
theorem slice?_eq {line : String} {pre mid post : List Char} (hline : line.toList = pre ++ mid ++ post) :
    slice? line (utf8Len pre) (utf8Len pre + utf8Len mid) = some (String.ofList mid) := by
  have hstart : String.Pos.Raw.IsValid line ⟨utf8Len pre⟩ :=
    isValid_utf8Len (hline.trans (List.append_assoc pre mid post))
  have hstop : String.Pos.Raw.IsValid line ⟨utf8Len pre + utf8Len mid⟩ := by
    rw [← String.utf8Len_append]
    exact isValid_utf8Len hline
  have hextract := String.extract_of_valid pre mid post
  rw [← hline, String.ofList_toList] at hextract
  rw [slice?, if_pos ⟨Nat.le_add_right _ _, hstart, hstop⟩, hextract]

/-! ## Cuts -/

/-- A piece of a line by its place. -/
structure Cut where
  kind : PieceKind
  /-- The offset in bytes at which it starts. -/
  start : Nat
  /-- The offset in bytes behind it. -/
  stop : Nat
  deriving DecidableEq, Repr

/-- The characters of a text that starts at an offset, each with its own offset. -/
def indexed (start : Nat) : List Char → List (Nat × Char)
  | [] => []
  | c :: rest => (start, c) :: indexed (start + c.utf8Size) rest

/-- The word that started at some offset, if there is one, stops. -/
def cutWord (word : Option Nat) (stop : Nat) : List Cut := (word.map (⟨.word, ·, stop⟩)).toList

/-- What stops before an opening mark, and where the part that it opens starts: the prefix of a reference is a part of
it. -/
def opening? (line : String) (word : Option Nat) (offset : Nat) (e : Enclosed) : Option (List Cut × Nat) :=
  match word with
  | none => some ([], offset)
  | some start =>
    if e = .reference then
      (slice? line start offset).map fun before =>
        if before = "-" ∨ before = ":" then ([], start) else (cutWord word offset, offset)
    else some (cutWord word offset, offset)

/-- Look for the mark that closes a part: the offset behind it, or that of the end of the line, and what is left to
read. -/
def closing (size : Nat) (mark : Char) : List (Nat × Char) → Nat × List (Nat × Char)
  | [] => (size, [])
  | (offset, c) :: rest => if c = mark then (offset + c.utf8Size, rest) else closing size mark rest

theorem length_closing_le (size : Nat) (mark : Char) (cs : List (Nat × Char)) :
    (closing size mark cs).2.length ≤ cs.length := by
  induction cs with
  | nil => exact Nat.le_refl _
  | cons c rest ih =>
    rw [closing]
    split
    · exact Nat.le_succ _
    · exact Nat.le_succ_of_le ih

/-- Cut the rest of a line, `word` being the start of the word that is being read; `none` if it is sliced inside of a
character. -/
def cutsFrom? (line : String) (word : Option Nat) : List (Nat × Char) → Option (List Cut)
  | [] => some (cutWord word line.utf8ByteSize)
  | (offset, c) :: rest =>
    -- The next character is only looked at: behind a single slash it is still to be read.
    if c = '/' && (rest.head?.map Prod.snd) = some '/' then
      some (cutWord word offset ++ [⟨.comment, offset, line.utf8ByteSize⟩])
    else match Enclosed.ofMark? c with
      | some e => do
        -- Behind the closing mark no word has begun.
        let (before, start) ← opening? line word offset e
        let later ← cutsFrom? line none (closing line.utf8ByteSize e.close rest).2
        return before ++ ⟨.enclosed e, start, (closing line.utf8ByteSize e.close rest).1⟩ :: later
      | none =>
        if isBlank c then do
          let later ← cutsFrom? line none rest
          return cutWord word offset ++ ⟨.blank, offset, offset + c.utf8Size⟩ :: later
        else cutsFrom? line (word.or (some offset)) rest
  termination_by cs => cs.length
  decreasing_by
    · exact Nat.lt_succ_of_le (length_closing_le ..)
    · exact Nat.lt_succ_self _
    · exact Nat.lt_succ_self _

/-- Cut a line; `none` if it is sliced inside of a character. -/
def cuts? (line : String) : Option (List Cut) :=
  if isDirective (trim line) then some [⟨.directive, 0, line.utf8ByteSize⟩]
  else cutsFrom? line none (indexed 0 line.toList)

/-- A piece in colours, sliced out of its line. -/
def Cut.span? (line : String) (k : Cut) : Option Span :=
  (slice? line k.start k.stop).map fun text => ⟨text, (⟨k.kind, text.toList⟩ : Piece).style⟩

/-- Cuts that follow one another from an offset to another, without gap or overlap, and none of which is empty. -/
inductive Tiles : Nat → List Cut → Nat → Prop
  | nil (offset : Nat) : Tiles offset [] offset
  | cons {kind : PieceKind} {start next stop : Nat} {rest : List Cut} : start < next → Tiles next rest stop →
      Tiles start (⟨kind, start, next⟩ :: rest) stop

/-! ## Pieces at their places -/

/-- The characters of pieces. -/
def characters (ps : List Piece) : List Char := (ps.map (·.text)).flatten

@[simp] theorem characters_nil : characters [] = [] := rfl

@[simp] theorem characters_cons (p : Piece) (ps : List Piece) : characters (p :: ps) = p.text ++ characters ps := rfl

@[simp] theorem characters_wordPiece (seen : List Char) : characters (wordPiece seen) = seen := flatten_wordPiece seen

/-- Pieces that follow one another from an offset on, by their places. -/
def placed (start : Nat) : List Piece → List Cut
  | [] => []
  | p :: rest => ⟨p.kind, start, start + utf8Len p.text⟩ :: placed (start + utf8Len p.text) rest

@[simp] theorem placed_append (start : Nat) (ps qs : List Piece) :
    placed start (ps ++ qs) = placed start ps ++ placed (start + utf8Len (characters ps)) qs := by
  induction ps generalizing start with
  | nil => simp [placed]
  | cons p rest ih => simp [placed, ih, Nat.add_assoc]

/-- The start of a word of which some characters have been read, behind others. -/
def wordStart (pre seen : List Char) : Option Nat := if seen.isEmpty then none else some (utf8Len pre)

theorem placed_wordPiece (pre seen : List Char) :
    placed (utf8Len pre) (wordPiece seen) = cutWord (wordStart pre seen) (utf8Len (pre ++ seen)) := by
  unfold wordPiece wordStart
  split
  · rfl
  · simp [placed, cutWord]

/-- One more character of a word: its start stays, or it starts here. -/
theorem wordStart_concat (pre seen : List Char) (c : Char) :
    (wordStart pre seen).or (some (utf8Len (pre ++ seen))) = wordStart pre (seen ++ [c]) := by
  cases seen <;> simp [wordStart]

/-- The texts at the places of pieces are those of the pieces. -/
theorem mapM_span?_placed {line : String} {ps : List Piece} {pre post : List Char}
    (hline : line.toList = pre ++ characters ps ++ post) :
    (placed (utf8Len pre) ps).mapM (Cut.span? line) = some (ps.map fun p => ⟨String.ofList p.text, p.style⟩) := by
  induction ps generalizing pre with
  | nil => rfl
  | cons p rest ih =>
    have hfirst : line.toList = pre ++ p.text ++ (characters rest ++ post) := by simpa using hline
    have hrest : line.toList = (pre ++ p.text) ++ characters rest ++ post := by simpa using hline
    have hlater := ih hrest
    rw [String.utf8Len_append] at hlater
    rw [placed, List.mapM_cons, hlater, Cut.span?, slice?_eq hfirst]
    simp

/-- Pieces without an empty one tile what they make up. -/
theorem tiles_placed {ps : List Piece} (hne : ∀ p ∈ ps, p.text ≠ []) (start : Nat) :
    Tiles start (placed start ps) (start + utf8Len (characters ps)) := by
  induction ps generalizing start with
  | nil => exact .nil start
  | cons p rest ih =>
    have hpos : utf8Len p.text ≠ 0 := fun h => hne p List.mem_cons_self (String.utf8Len_eq_zero.mp h)
    have hlater := ih (fun q hq => hne q (List.mem_cons_of_mem p hq)) (start + utf8Len p.text)
    rw [Nat.add_assoc, ← String.utf8Len_append] at hlater
    apply Tiles.cons
    · omega
    · exact hlater

/-! ## Reading by characters and by offsets -/

/-- The characters up to a mark, with it, and those behind it. -/
def upTo (mark : Char) : List Char → List Char × List Char
  | [] => ([], [])
  | c :: rest => if c = mark then ([c], rest) else (c :: (upTo mark rest).1, (upTo mark rest).2)

theorem upTo_append (mark : Char) (cs : List Char) : (upTo mark cs).1 ++ (upTo mark cs).2 = cs := by
  induction cs with
  | nil => rfl
  | cons c rest ih =>
    rw [upTo]
    split
    · rfl
    · exact congrArg (c :: ·) ih

/-- A part that is open runs up to its closing mark, and the reading goes on behind that. -/
theorem piecesFrom_enclosed (e : Enclosed) (seen cs : List Char) :
    piecesFrom (some e) seen cs =
      ⟨.enclosed e, seen ++ (upTo e.close cs).1⟩ :: piecesFrom none [] (upTo e.close cs).2 := by
  induction cs generalizing seen with
  | nil => simp [piecesFrom, upTo, wordPiece]
  | cons c rest ih =>
    rw [piecesFrom, upTo]
    by_cases hclose : c = e.close
    · simp [hclose]
    · simp [hclose, ih]

theorem closing_indexed (mark : Char) (cs : List Char) {size start : Nat} (hsize : size = start + utf8Len cs) :
    closing size mark (indexed start cs) =
      (start + utf8Len (upTo mark cs).1, indexed (start + utf8Len (upTo mark cs).1) (upTo mark cs).2) := by
  induction cs generalizing start with
  | nil => simp [closing, indexed, upTo, hsize]
  | cons c rest ih =>
    rw [indexed, closing, upTo]
    by_cases hmark : c = mark
    · simp [hmark]
    · have hbehind : start + c.utf8Size + utf8Len (upTo mark rest).1 =
          start + (utf8Len (upTo mark rest).1 + c.utf8Size) := by omega
      have hrest : size = start + c.utf8Size + utf8Len rest := by
        rw [hsize, String.utf8Len_cons]
        omega
      simp [hmark, ih hrest, hbehind]

theorem head?_indexed (start : Nat) (cs : List Char) : (indexed start cs).head?.map Prod.snd = cs.head? := by
  cases cs <;> rfl

theorem wordStart_of_ne_nil {pre seen : List Char} (h : seen ≠ []) : wordStart pre seen = some (utf8Len pre) :=
  if_neg (by simpa using h)

theorem joinsMark_iff (seen : List Char) (e : Enclosed) :
    joinsMark seen e = true ↔ e = .reference ∧ (String.ofList seen = "-" ∨ String.ofList seen = ":") := by
  have hdash : String.ofList seen = "-" ↔ seen = ['-'] := @String.ofList_inj seen ['-']
  have hcolon : String.ofList seen = ":" ↔ seen = [':'] := @String.ofList_inj seen [':']
  rw [hdash, hcolon]
  simp [joinsMark]

/-- Before a mark, the word read so far is sliced out where it stands, and so a prefix is found. -/
theorem opening?_eq {line : String} {pre seen post : List Char} (hline : line.toList = pre ++ seen ++ post)
    (e : Enclosed) :
    opening? line (wordStart pre seen) (utf8Len (pre ++ seen)) e =
      some (if joinsMark seen e then ([], utf8Len pre)
        else (cutWord (wordStart pre seen) (utf8Len (pre ++ seen)), utf8Len (pre ++ seen))) := by
  by_cases hseen : seen = []
  · subst hseen
    simp [wordStart, opening?, joinsMark, cutWord]
  · have hslice : slice? line (utf8Len pre) (utf8Len (pre ++ seen)) = some (String.ofList seen) := by
      rw [String.utf8Len_append]
      exact slice?_eq hline
    rw [wordStart_of_ne_nil hseen, opening?, hslice]
    by_cases he : e = .reference
    · by_cases hattached : String.ofList seen = "-" ∨ String.ofList seen = ":"
      · rw [if_pos he, if_pos ((joinsMark_iff seen e).mpr ⟨he, hattached⟩), Option.map_some, if_pos hattached]
      · rw [if_pos he, if_neg (fun h => hattached ((joinsMark_iff seen e).mp h).2), Option.map_some, if_neg hattached]
    · rw [if_neg he, if_neg (fun h => he ((joinsMark_iff seen e).mp h).1)]

/-- Behind `pre`, which has been cut, and `seen`, the word that is being read, the reading by offsets gives the pieces
of the rest where they stand. -/
def Agrees (line : String) (pre seen rest : List Char) : Prop :=
  cutsFrom? line (wordStart pre seen) (indexed (utf8Len (pre ++ seen)) rest) =
    some (placed (utf8Len pre) (piecesFrom none seen rest))

section Steps

variable {line : String} {pre seen rest : List Char} {c : Char}

theorem utf8Len_concat (cs : List Char) (c : Char) : utf8Len (cs ++ [c]) = utf8Len cs + c.utf8Size := by
  rw [String.utf8Len_append, String.utf8Len_cons, String.utf8Len_nil, Nat.zero_add]

/-- The bytes of a line are those that have been read and those that are left. -/
theorem utf8ByteSize_eq {cs left : List Char} (hline : line.toList = cs ++ left) :
    line.utf8ByteSize = utf8Len cs + utf8Len left := by
  rw [← String.utf8Len_toList, hline, String.utf8Len_append]

/-- At the end of the line the last word stops. -/
theorem agrees_nil (hline : line.toList = pre ++ seen) : Agrees line pre seen [] := by
  have hsize : line.utf8ByteSize = utf8Len (pre ++ seen) := by
    rw [← String.utf8Len_toList, hline]
  rw [Agrees, indexed, cutsFrom?, piecesFrom, placed_wordPiece, hsize]

/-- A comment runs to the end of the line. -/
theorem agrees_comment (hline : line.toList = pre ++ seen ++ c :: rest)
    (hcomment : (c = '/' && rest.head? = some '/') = true) : Agrees line pre seen (c :: rest) := by
  rw [Agrees, indexed, cutsFrom?, piecesFrom, head?_indexed, if_pos hcomment, if_pos hcomment, placed_append,
    placed_wordPiece, characters_wordPiece, utf8ByteSize_eq hline, String.utf8Len_append pre seen]
  rfl

/-- A part runs up to its closing mark, and no word has begun behind that. -/
theorem agrees_mark {e : Enclosed} (hline : line.toList = pre ++ seen ++ c :: rest)
    (hcomment : ¬ (c = '/' && rest.head? = some '/') = true) (hmark : Enclosed.ofMark? c = some e)
    (hbehind : Agrees line (pre ++ seen ++ [c] ++ (upTo e.close rest).1) [] (upTo e.close rest).2) :
    Agrees line pre seen (c :: rest) := by
  have hsize : line.utf8ByteSize = utf8Len (pre ++ seen ++ [c]) + utf8Len rest :=
    utf8ByteSize_eq (by rw [hline, List.append_assoc (pre ++ seen), List.singleton_append])
  rw [Agrees, List.append_nil, String.utf8Len_append (pre ++ seen ++ [c])] at hbehind
  rw [Agrees, indexed, cutsFrom?, piecesFrom, head?_indexed, if_neg hcomment, if_neg hcomment, hmark]
  simp only
  rw [opening?_eq hline, ← utf8Len_concat, closing_indexed e.close rest hsize, piecesFrom_enclosed,
    piecesFrom_enclosed]
  simp only [wordStart, List.isEmpty_nil, if_true] at hbehind
  rw [hbehind]
  -- The part starts with the word before its mark, if that is its prefix, or with the mark; it stops at one place.
  by_cases hjoins : joinsMark seen e = true
  · rw [if_pos hjoins, if_pos hjoins, placed]
    simp [Nat.add_assoc, Nat.add_comm c.utf8Size]
  · rw [if_neg hjoins, if_neg hjoins, placed_append, placed_wordPiece, characters_wordPiece, placed]
    simp [Nat.add_assoc, Nat.add_comm c.utf8Size]

/-- A blank stops the word before it and is a piece of its own. -/
theorem agrees_blank (hcomment : ¬ (c = '/' && rest.head? = some '/') = true) (hmark : Enclosed.ofMark? c = none)
    (hblank : isBlank c = true) (hbehind : Agrees line (pre ++ seen ++ [c]) [] rest) :
    Agrees line pre seen (c :: rest) := by
  rw [Agrees, List.append_nil] at hbehind
  rw [Agrees, indexed, cutsFrom?, piecesFrom, head?_indexed, if_neg hcomment, if_neg hcomment, hmark]
  simp only [wordStart, List.isEmpty_nil, if_true] at hbehind
  simp only
  rw [if_pos hblank, if_pos hblank, ← utf8Len_concat, hbehind, placed_append, placed_wordPiece, characters_wordPiece,
    placed]
  simp [Nat.add_assoc]

/-- Any other character belongs to the word that is being read, or begins one. -/
theorem agrees_word (hcomment : ¬ (c = '/' && rest.head? = some '/') = true) (hmark : Enclosed.ofMark? c = none)
    (hblank : ¬ isBlank c = true) (hbehind : Agrees line pre (seen ++ [c]) rest) :
    Agrees line pre seen (c :: rest) := by
  rw [Agrees, ← List.append_assoc] at hbehind
  rw [Agrees, indexed, cutsFrom?, piecesFrom, head?_indexed, if_neg hcomment, if_neg hcomment, hmark]
  simp only
  rw [if_neg hblank, if_neg hblank, wordStart_concat pre seen c, ← utf8Len_concat, hbehind]

end Steps

/-- **Reading by offsets gives the pieces at their places**, by induction on the number of characters that are left: the
reading may go on far behind an opening mark. -/
theorem cutsFrom?_eq {line : String} {pre seen rest : List Char} (hline : line.toList = pre ++ seen ++ rest) :
    Agrees line pre seen rest := by
  induction hlength : rest.length using Nat.strongRecOn generalizing pre seen rest with
  | _ n ih =>
    cases rest with
    | nil => exact agrees_nil (by rw [hline, List.append_nil])
    | cons c rest =>
      subst hlength
      by_cases hcomment : (c = '/' && rest.head? = some '/') = true
      · exact agrees_comment hline hcomment
      · cases hmark : Enclosed.ofMark? c with
        | some e =>
          have hsplit := upTo_append e.close rest
          have hlength : (upTo e.close rest).2.length ≤ rest.length := by
            conv_rhs => rw [← hsplit, List.length_append]
            omega
          -- All up to the closing mark has been cut.
          refine agrees_mark hline hcomment hmark (ih _ (Nat.lt_succ_of_le hlength) ?_ rfl)
          rw [hline, List.append_nil, List.append_assoc _ _ (upTo e.close rest).2, hsplit]
          simp
        | none =>
          by_cases hblank : isBlank c = true
          · exact agrees_blank hcomment hmark hblank (ih _ (Nat.lt_succ_self _) (by simp [hline]) rfl)
          · exact agrees_word hcomment hmark hblank (ih _ (Nat.lt_succ_self _) (by simp [hline]) rfl)

/-! ## Whole lines -/

theorem text_ne_nil_of_mem_wordPiece {seen : List Char} : ∀ p ∈ wordPiece seen, p.text ≠ [] := by
  intro p hp
  by_cases hseen : seen = []
  · simp [wordPiece, hseen] at hp
  · obtain rfl : p = ⟨.word, seen⟩ := by simpa [wordPiece, hseen] using hp
    exact hseen

/-- No piece is empty.  A part has its opening mark at least, so one is open only if something has been read of it. -/
theorem text_ne_nil_of_mem_piecesFrom {inside : Option Enclosed} {seen cs : List Char}
    (hinside : inside.isSome = true → seen ≠ []) : ∀ p ∈ piecesFrom inside seen cs, p.text ≠ [] := by
  induction cs generalizing inside seen with
  | nil =>
    cases inside with
    | none => exact text_ne_nil_of_mem_wordPiece
    | some e =>
      intro p hp
      obtain rfl := List.mem_singleton.mp hp
      exact hinside rfl
  | cons c rest ih =>
    have hnone : ∀ p ∈ piecesFrom none [] rest, p.text ≠ [] := ih (by simp)
    unfold piecesFrom
    cases inside with
    | some e =>
      simp only
      split
      · exact List.forall_mem_cons.mpr ⟨by simp, hnone⟩
      · exact ih (by simp)
    | none =>
      simp only
      split
      · exact List.forall_mem_append.mpr ⟨text_ne_nil_of_mem_wordPiece, by simp⟩
      · split
        · split
          · exact ih (by simp)
          · exact List.forall_mem_append.mpr ⟨text_ne_nil_of_mem_wordPiece, ih (by simp)⟩
        · split
          · rw [List.forall_mem_append, List.forall_mem_cons]
            exact ⟨text_ne_nil_of_mem_wordPiece, by simp, hnone⟩
          · exact ih (by simp)

theorem text_ne_nil_of_mem_linePieces {line : String} : ∀ p ∈ linePieces line, p.text ≠ [] := by
  unfold linePieces
  split
  · rename_i hdirective
    intro p hp
    obtain rfl := List.mem_singleton.mp hp
    intro hempty
    obtain rfl : line = "" := String.toList_eq_nil_iff.mp hempty
    exact absurd hdirective (by decide)
  · exact text_ne_nil_of_mem_piecesFrom (by simp)

/-- **Cutting a line by offsets gives its pieces where they stand.** -/
theorem cuts?_eq (line : String) : cuts? line = some (placed 0 (linePieces line)) := by
  unfold cuts? linePieces
  by_cases hdirective : isDirective (trim line) = true
  · rw [if_pos hdirective, if_pos hdirective]
    simp [placed]
  · rw [if_neg hdirective, if_neg hdirective]
    have hagrees : Agrees line [] [] line.toList := cutsFrom?_eq rfl
    rwa [Agrees, List.append_nil, String.utf8Len_nil] at hagrees

/-- **Colouring loses nothing.**  For every line:

* the texts of its spans, one behind the other, are the line;
* cutting it by offsets never slices it inside of a character, and it gives these spans;
* the cuts follow one another from the first byte of the line to its last, without gap or overlap, and none is empty. -/
theorem highlighting_loses_nothing (line : String) :
    String.join ((highlight line).map (·.text)) = line ∧
    ∃ cuts, cuts? line = some cuts ∧ cuts.mapM (Cut.span? line) = some (highlight line) ∧
      Tiles 0 cuts line.utf8ByteSize := by
  have hwhole : characters (linePieces line) = line.toList := flatten_pieces line
  refine ⟨?_, placed 0 (linePieces line), cuts?_eq line, ?_, ?_⟩
  · rw [← String.toList_inj, String.toList_join, ← hwhole]
    simp [highlight, characters, List.flatMap, Function.comp_def]
  · have hline : line.toList = [] ++ characters (linePieces line) ++ [] := by simp [hwhole]
    have hspans := mapM_span?_placed hline
    rwa [String.utf8Len_nil] at hspans
  · have htiles := tiles_placed (@text_ne_nil_of_mem_linePieces line) 0
    rwa [hwhole, Nat.zero_add, String.utf8Len_toList] at htiles

/-- A prefix belongs to its reference, and a part that is not closed runs to the end. -/
example : (highlight "log -\\ä\\ é [1|2 // ü").map (·.text) = ["log", " ", "-\\ä\\", " ", "é", " ", "[1|2 // ü"] := by
  decide +kernel

end LineScript.Pane
