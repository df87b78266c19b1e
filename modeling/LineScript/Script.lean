/-
# Scripts, their lines and directives

A script is a text with one statement a line.  Reading it drops comments and outer blanks and collects the
directives, lines in brackets such as `[ipt 5]`.  A directive keeps its line number and does nothing when
the cursor passes it.

`Script.ofText?` reads a script, and `Script.check` tokenizes every statement without running any.
-/
import LineScript.Token

namespace LineScript

open LineScript.Text

/-! ## Comments -/

/-- The line up to the first `//` outside of string quotes. -/
def stripCommentFrom (inString : Bool) : List Char → List Char
  | [] => []
  | [c] => [c]
  | c :: d :: rest =>
    if c = '"' then c :: stripCommentFrom (!inString) (d :: rest)
    else if c = '/' && d = '/' && !inString then []
    else c :: stripCommentFrom inString (d :: rest)

/-- A line without its comment. -/
def stripComment (line : String) : String :=
  String.ofList (stripCommentFrom false line.toList)

/-! ## Directives -/

/-- What a line in brackets asks for. -/
inductive Directive
  | require (id : String)
  | ignore (keywords : List String)
  | environment (name : String)
  | display (name : String)
  | budget (statements : Nat)
  | strict (on : Bool)
  deriving DecidableEq, Repr

/-- Is this line a directive: at least two characters, in brackets? -/
def isDirective (line : String) : Bool :=
  match line.toList with
  | '[' :: rest => rest.getLast? == some ']'
  | _ => false

/-- The words of a directive, without its brackets. -/
def directiveWords (line : String) : List String :=
  words (String.ofList (line.toList.tail.dropLast))

/-- The only argument of a directive. -/
def onlyArgument (name what : String) : List String → Except Fault String
  | [arg] => .ok arg
  | _ => .error (.directiveTakesOne name what)

/-- The directive of some words. -/
def Directive.ofWords? : List String → Except Fault Directive
  | [] => .error .emptyDirective
  | "require" :: args => .require <$> onlyArgument "require" "extension id" args
  | ["ignore"] => .error .ignoreNothing
  | "ignore" :: args => .ok (.ignore args)
  | "environment" :: args => .environment <$> onlyArgument "environment" "environment name" args
  | "env" :: args => .environment <$> onlyArgument "env" "environment name" args
  | ["display"] => .error .displayNothing
  | "display" :: args => .ok (.display (String.intercalate " " args))
  | "ipt" :: args => do
    let text ← onlyArgument "ipt" "number" args
    match natural? naturalBound text with
    | some (n + 1) => return .budget (n + 1)
    | _ => throw (.badBudget text)
  | ["strict"] => .ok (.strict true)
  | ["strict", "off"] => .ok (.strict false)
  | "strict" :: _ => .error .badStrict
  | name :: _ => .error (.unknownDirective name)

/-- Read a directive. -/
def Directive.ofLine? (line : String) : Except Fault Directive :=
  Directive.ofWords? (directiveWords line)

/-! ## Notes -/

/-- What the directives of a script ask for together. -/
structure Notes where
  required : List String := []
  ignored : List String := []
  directives : List Directive := []
  displayName : Option String := none
  environment : Option String := none
  budget : Option Nat := none
  strict : Bool := false
  deriving DecidableEq, Repr, Inhabited

/-- Take one more directive: requirements and ignored keywords gather, for the others the last counts. -/
def Notes.add (n : Notes) (d : Directive) : Notes :=
  let n := { n with directives := n.directives ++ [d] }
  match d with
  | .require id => { n with required := n.required ++ [id] }
  | .ignore keywords => { n with ignored := keywords.foldl withElement n.ignored }
  | .environment name => { n with environment := some name }
  | .display name => { n with displayName := some name }
  | .budget statements => { n with budget := some statements }
  | .strict on => { n with strict := on }

/-! ## Scripts -/

/-- The lines of a script, one statement each, and its notes. -/
structure Script where
  lines : Array String := #[]
  notes : Notes := {}
  deriving DecidableEq, Repr, Inhabited

/-- A raw line without line ending, comment and outer blanks. -/
def cleanLine (raw : List Char) : String :=
  String.ofList (trimChars (stripCommentFrom false (dropEndWhile (· == '\r') raw)))

/-- The lines of a text. -/
def cleanLines (text : String) : List String :=
  (pieces '\n' text.toList).map cleanLine

/-- The notes of the directives among some lines, the first of them having the number `number`. -/
def notesFrom (notes : Notes) (number : Nat) : List String → Except Fault Notes
  | [] => .ok notes
  | line :: rest =>
    if isDirective line then
      match Directive.ofLine? line with
      | .ok d => notesFrom (notes.add d) (number + 1) rest
      | .error cause => .error (.onLine cause number)
    else notesFrom notes (number + 1) rest

/-- Read a script; fails at its first malformed directive. -/
def Script.ofText? (text : String) : Except Fault Script := do
  let lines := cleanLines text
  let notes ← notesFrom {} 1 lines
  return { lines := lines.toArray, notes := notes }

/-- Does the line hold no statement? -/
def isPassive (line : String) : Bool := line.isEmpty || isDirective line

/-- The faults that cutting the lines from number `number` on into tokens would give, with their lines. -/
def checkLines (types : List WordType) (number : Nat) : List String → List (Nat × Fault)
  | [] => []
  | line :: rest =>
    if isPassive line then checkLines types (number + 1) rest
    else match tokenizeInert types line with
      | .ok _ => checkLines types (number + 1) rest
      | .error fault => (number, fault) :: checkLines types (number + 1) rest

/-- Tokenize every statement of a text without running it.  A script that cannot be read gives one fault,
on line zero. -/
def Script.check (types : List WordType) (text : String) : List (Nat × Fault) :=
  match Script.ofText? text with
  | .ok script => checkLines types 1 script.lines.toList
  | .error fault => [(0, fault)]

/-! ## Small laws -/

@[simp] theorem stripCommentFrom_nil (b : Bool) : stripCommentFrom b [] = [] := rfl

@[simp] theorem stripCommentFrom_single (b : Bool) (c : Char) : stripCommentFrom b [c] = [c] := rfl

theorem stripCommentFrom_quote (b : Bool) (rest : List Char) :
    stripCommentFrom b ('"' :: rest) = '"' :: stripCommentFrom (!b) rest := by
  cases rest <;> simp [stripCommentFrom]

/-- Inside of quotes nothing ends the line but the closing quote. -/
theorem stripCommentFrom_inString {c : Char} (h : c ≠ '"') (rest : List Char) :
    stripCommentFrom true (c :: rest) = c :: stripCommentFrom true rest := by
  cases rest <;> simp [stripCommentFrom, h]

end LineScript
