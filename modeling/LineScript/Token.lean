/-
# Cutting a line into tokens

A line is cut in one pass from left to right into lexemes: bare runs, quoted parts, groups in brackets and
references between backslashes.  `scan` says where the lexemes are, and at which fault the pass ended, if
any; it looks at nothing but the characters.  `Lexeme.token` gives a lexeme its value, and `tokenize`
joins the two: the leftmost fault wins, whether the line is malformed or a reference has no value.

Without a resolver references stay unread, as identifiers that hold their source text.
-/
import LineScript.Fault
import LineScript.Literal

namespace LineScript

open LineScript.Text

/-! ## References -/

/-- Where a reference looks for its name. -/
inductive Reach
  /-- Parameters of the running call first, then locals. -/
  | nearest
  | locals
  | parameters
  | globals
  deriving DecidableEq, Repr, Inhabited

/-- A name to look up. -/
structure Reference where
  name : String
  reach : Reach
  deriving DecidableEq, Repr

/-- What gives references their values. -/
abbrev Resolver := Reference → Except Fault Value

/-- The reach that the bare run before a reference asks for, `none` if it may not stand there. -/
def Reach.ofMark : List Char → Option Reach
  | [] => some .nearest
  | ['-'] => some .locals
  | [':'] => some .parameters
  | _ => none

/-- The reference written between two backslashes; a leading underscore asks for globals. -/
def Reference.ofRaw (raw : List Char) (reach : Reach) : Reference :=
  match raw with
  | '_' :: rest => ⟨String.ofList rest, .globals⟩
  | _ => ⟨String.ofList raw, reach⟩

/-- Is there a name between the backslashes? -/
def namesSomething : List Char → Bool
  | [] | ['_'] => false
  | _ => true

/-! ## Lexemes -/

/-- One element of a line, before it has a value. -/
inductive Lexeme
  | bare (word : List Char)
  | quoted (text : List Char)
  | group (inner : List Char)
  | reference (raw : List Char) (reach : Reach)
  deriving DecidableEq, Repr

/-- The lexemes of a line up to the fault that ended the pass, if any. -/
structure Scan where
  lexemes : List Lexeme
  fault : Option Fault

/-- A lexeme before those of a scan. -/
def Scan.push (l : Lexeme) (s : Scan) : Scan := { s with lexemes := l :: s.lexemes }

/-- A bare run before the lexemes of a scan, unless it is empty. -/
def Scan.pushBare (word : List Char) (s : Scan) : Scan :=
  if word.isEmpty then s else s.push (.bare word)

/-- What the characters read so far belong to. -/
inductive Region
  | plain
  | quoted
  | group
  | reference (reach : Reach)

/-- Scan from inside a region, `seen` being its characters so far. -/
def scanFrom : Region → (seen : List Char) → List Char → Scan
  | .plain, seen, [] => Scan.pushBare seen ⟨[], none⟩
  | .quoted, _, [] => ⟨[], some .openString⟩
  | .group, _, [] => ⟨[], some .openGroup⟩
  | .reference _, _, [] => ⟨[], some .openReference⟩
  | .plain, seen, c :: rest =>
    if isBlank c then Scan.pushBare seen (scanFrom .plain [] rest)
    else if c = '"' then Scan.pushBare seen (scanFrom .quoted [] rest)
    else if c = '[' then Scan.pushBare seen (scanFrom .group [] rest)
    else if c = '\\' then
      match Reach.ofMark seen with
      | some reach => scanFrom (.reference reach) [] rest
      | none => ⟨[], some (.referenceInWord (String.ofList seen))⟩
    else scanFrom .plain (seen ++ [c]) rest
  | .quoted, seen, c :: rest =>
    if c = '"' then (scanFrom .plain [] rest).push (.quoted seen)
    else scanFrom .quoted (seen ++ [c]) rest
  | .group, seen, c :: rest =>
    if c = ']' then (scanFrom .plain [] rest).push (.group seen)
    else scanFrom .group (seen ++ [c]) rest
  | .reference reach, seen, c :: rest =>
    if c = '\\' then
      if namesSomething seen then (scanFrom .plain [] rest).push (.reference seen reach)
      else ⟨[], some .emptyReference⟩
    else scanFrom (.reference reach) (seen ++ [c]) rest

/-- The lexemes of a line. -/
def scan (line : String) : Scan := scanFrom .plain [] line.toList

/-! ## Tokens -/

/-- One typed element of a statement: its value and its source text. -/
structure Token where
  value : Value
  /-- The display text of its value for a resolved reference. -/
  text : String
  deriving Repr, Inhabited

/-- Can this token name a keyword or a label?  Strings cannot. -/
def Token.isWord (t : Token) : Bool := t.value.tag != .string

/-- The texts of the elements of a group in brackets; nothing between the brackets is no element. -/
def groupItems (inner : List Char) : List String :=
  if inner.isEmpty then [] else (pieces '|' inner).map String.ofList

/-- The text between marks, with its marks. -/
def between (opening : String) (inner : List Char) (closing : String) : String :=
  opening ++ String.ofList inner ++ closing

/-- The token of a lexeme. -/
def Lexeme.token (types : List WordType) (resolver : Option Resolver) : Lexeme → Except Fault Token
  | .bare word => .ok ⟨wordValue types (String.ofList word), String.ofList word⟩
  | .quoted text => .ok ⟨.string (String.ofList text), String.ofList text⟩
  | .group inner =>
    .ok ⟨.group ((groupItems inner).map (wordValue types)), between "[" inner "]"⟩
  | .reference raw reach =>
    match resolver with
    | some resolve => do
      let value ← resolve (Reference.ofRaw raw reach)
      return ⟨value, value.display⟩
    | none =>
      let text := between "\\" raw "\\"
      .ok ⟨.identifier text, text⟩

/-- The tokens of the lexemes of a scan, or the leftmost fault. -/
def Scan.tokens (types : List WordType) (resolver : Option Resolver) (s : Scan) : Except Fault (List Token) := do
  let tokens ← s.lexemes.mapM (·.token types resolver)
  match s.fault with
  | some fault => throw fault
  | none => return tokens

/-- The tokens of a line, or its leftmost fault. -/
def tokenize (types : List WordType) (resolver : Option Resolver) (line : String) : Except Fault (List Token) :=
  (scan line).tokens types resolver

/-- The tokens of a line with its references unread. -/
def tokenizeInert (types : List WordType) (line : String) : Except Fault (List Token) :=
  tokenize types none line

end LineScript
