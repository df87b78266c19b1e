/-
# Colouring a line

A line of a script is cut into pieces by what they are: words, blanks, quoted parts, groups, references and
a comment.  `Piece.style` gives them their looks.

`flatten_pieces` says that the pieces of a line make up the line again, so nothing is lost or moved.
-/
import LineScript.Script
import LineScript.Screen.Drawing

namespace LineScript.Pane

open LineScript.Text LineScript.Screen

/-! ## Pieces -/

/-- A part that runs from an opening mark to a closing one, or to the end of the line. -/
inductive Enclosed
  | quoted
  | group
  | reference
  deriving DecidableEq, Repr

/-- What a piece of a line is. -/
inductive PieceKind
  | word
  | blank
  | enclosed (e : Enclosed)
  | comment
  | directive
  deriving DecidableEq, Repr

/-- A piece of a line. -/
structure Piece where
  kind : PieceKind
  text : List Char
  deriving DecidableEq, Repr

/-- What a mark opens. -/
def Enclosed.ofMark? : Char → Option Enclosed
  | '"' => some .quoted
  | '[' => some .group
  | '\\' => some .reference
  | _ => none

/-- The mark that closes a part. -/
def Enclosed.close : Enclosed → Char
  | quoted => '"'
  | group => ']'
  | reference => '\\'

/-- The word read so far, unless it is empty. -/
def wordPiece (seen : List Char) : List Piece := if seen.isEmpty then [] else [⟨.word, seen⟩]

/-- Does the word before a mark belong to what the mark opens? -/
def joinsMark (seen : List Char) (e : Enclosed) : Bool :=
  e = .reference && (seen = ['-'] || seen = [':'])

/-- The pieces of a line, `seen` being the characters of the current one so far; `inside` tells in which
part it is, if any. -/
def piecesFrom (inside : Option Enclosed) (seen : List Char) : List Char → List Piece
  | [] =>
    match inside with
    | some e => [⟨.enclosed e, seen⟩]
    | none => wordPiece seen
  | c :: rest =>
    match inside with
    | some e =>
      if c = e.close then ⟨.enclosed e, seen ++ [c]⟩ :: piecesFrom none [] rest
      else piecesFrom inside (seen ++ [c]) rest
    | none =>
      if c = '/' && rest.head? = some '/' then wordPiece seen ++ [⟨.comment, c :: rest⟩]
      else match Enclosed.ofMark? c with
        | some e =>
          if joinsMark seen e then piecesFrom (some e) (seen ++ [c]) rest
          else wordPiece seen ++ piecesFrom (some e) [c] rest
        | none =>
          if isBlank c then wordPiece seen ++ ⟨.blank, [c]⟩ :: piecesFrom none [] rest
          else piecesFrom none (seen ++ [c]) rest

/-- The pieces of a line. -/
def linePieces (line : String) : List Piece :=
  if isDirective (trim line) then [⟨.directive, line.toList⟩] else piecesFrom none [] line.toList

/-! ## Looks -/

/-- The words that start statements or stand between their parts. -/
def statementWords : List String :=
  ["var", "set", "add", "subtract", "multiply", "divide", "modulo", "join", "log", "function",
    "execute", "end", "if", "else", "|", "jump", "iterate", "with", "class", "object", "from",
    "#", "pause", "awaitkey", "stop", "restart", "export", "import"]

/-- The words that stand before statements. -/
def labelWords : List String := ["global", "non-destructive"]

/-- The style of a word. -/
def wordStyle (word : String) : Style :=
  if word ∈ statementWords then (Style.ofColor Palette.blue).inBold
  else if word ∈ labelWords then .ofColor Palette.teal
  else if Decimal.isLiteral word || word.toList.head? = some '~' then .ofColor Palette.orange
  else if word.toList.contains ':' then .ofColor Palette.yellow
  else .ofColor Palette.plain

/-- The style of a piece. -/
def Piece.style (p : Piece) : Style :=
  match p.kind with
  | .word => wordStyle (String.ofList p.text)
  | .blank => {}
  | .enclosed .quoted => .ofColor Palette.orange
  | .enclosed .group => .ofColor Palette.blue
  | .enclosed .reference => .ofColor Palette.pink
  | .comment => .ofColor Palette.grey
  | .directive => .ofColor Palette.mauve

/-- A line in colours. -/
def highlight (line : String) : List Span :=
  (linePieces line).map fun p => ⟨String.ofList p.text, p.style⟩

/-! ## Nothing is lost -/

@[simp] theorem flatten_wordPiece (seen : List Char) : ((wordPiece seen).map (·.text)).flatten = seen := by
  unfold wordPiece
  split
  · simp_all
  · simp

theorem flatten_piecesFrom (inside : Option Enclosed) (seen cs : List Char) :
    ((piecesFrom inside seen cs).map (·.text)).flatten = seen ++ cs := by
  induction cs generalizing inside seen with
  | nil => cases inside <;> simp [piecesFrom]
  | cons c rest ih =>
    unfold piecesFrom
    cases inside with
    | some e =>
      simp only
      split <;> simp [ih]
    | none =>
      simp only
      split
      · simp
      · split
        · split <;> simp [ih]
        · split <;> simp [ih]

/-- The pieces of a line make up the line. -/
theorem flatten_pieces (line : String) : ((linePieces line).map (·.text)).flatten = line.toList := by
  unfold linePieces
  split
  · simp
  · simp [flatten_piecesFrom]

end LineScript.Pane
