/-
# Documents of TOML

`Tree.ofText?` reads a document; `none` means that it is not well-formed.  The format bounds neither the
nesting of arrays nor the length of dotted keys, this reader does, and so its recursion on nested values
goes by the depth that is left.
-/
import LineScript.Toml.Quoted
import LineScript.Toml.Tree

namespace LineScript.Toml

/-! ## Between the parts -/

/-- The text with every line break as a single line feed. -/
def joinBreaks : List Char → List Char
  | '\r' :: '\n' :: rest => '\n' :: joinBreaks rest
  | c :: rest => c :: joinBreaks rest
  | [] => []

/-- Drop blanks. -/
def skipSpaces (cs : List Char) : List Char := cs.dropWhile isSpace

/-- Drop blanks, line breaks and comments. -/
def skipAll (inComment : Bool) : List Char → List Char
  | [] => []
  | c :: rest =>
    if c = '\n' then skipAll false rest
    else if inComment then if isVisible c then skipAll true rest else c :: rest
    else if isSpace c then skipAll false rest
    else if c = '#' then skipAll true rest
    else c :: rest

/-- The text behind a line of which only blanks and a comment may be left. -/
def lineEnd? (cs : List Char) : Option (List Char) :=
  let afterComment (rest : List Char) : Option (List Char) :=
    match rest with
    | [] => some []
    | '\n' :: rest => some rest
    | _ => none
  match skipSpaces cs with
  | '#' :: rest => afterComment (rest.dropWhile isVisible)
  | rest => afterComment rest

/-- The text behind a character that must come first. -/
def expect? (c : Char) : List Char → Option (List Char)
  | d :: rest => if c = d then some rest else none
  | [] => none

/-! ## Keys -/

/-- The number of keys that may be joined by dots, and of arrays and tables that may nest. -/
def maxDepth : Nat := 79

/-- A character of a bare key. -/
def isBareChar (c : Char) : Bool := c.isAlphanum || c == '-' || c == '_'

/-- Read a key without dots. -/
def key? (cs : List Char) : Option (String × List Char) :=
  match cs with
  | '"' :: rest => (basic rest).map fun (text, rest) => (String.ofList text, rest)
  | '\'' :: rest => (literal rest).map fun (text, rest) => (String.ofList text, rest)
  | _ =>
    let bare := cs.takeWhile isBareChar
    if bare.isEmpty then none else some (String.ofList bare, cs.dropWhile isBareChar)

/-- Read up to `limit` keys joined by dots, with blanks around each. -/
def keys? : (limit : Nat) → List Char → Option (List String × List Char)
  | 0, _ => none
  | limit + 1, cs => do
    let (name, rest) ← key? (skipSpaces cs)
    match skipSpaces rest with
    | '.' :: rest =>
      let (names, rest) ← keys? limit rest
      return (name :: names, rest)
    | rest => return ([name], rest)

/-! ## Values -/

/-- What reads a value off the front of a text. -/
abbrev ReadItem := List Char → Option (Item × List Char)

/-- Read a key with its value. -/
def pair? (read : ReadItem) (cs : List Char) : Option ((List String × Item) × List Char) := do
  let (names, rest) ← keys? maxDepth cs
  let rest ← expect? '=' rest
  let (item, rest) ← read (skipSpaces rest)
  return ((names, item), rest)

/-- The text behind an array whose elements come next, `bound` being more than the length of the text. -/
def elements? (read : ReadItem) : (bound : Nat) → List Char → Option (List Char)
  | 0, _ => none
  | bound + 1, cs =>
    match skipAll false cs with
    | ']' :: rest => some rest
    | cs => do
      let (_, rest) ← read cs
      match skipAll false rest with
      | ']' :: rest => some rest
      | ',' :: rest => elements? read bound rest
      | _ => none

/-- The text behind an inline table whose pairs come next. -/
def pairs? (read : ReadItem) : (bound : Nat) → Tree → List Char → Option (List Char)
  | 0, _, _ => none
  | bound + 1, t, cs => do
    let ((names, item), rest) ← pair? read cs
    let t ← t.addPair [] names item
    match skipSpaces rest with
    | '}' :: rest => some rest
    | ',' :: rest => pairs? read bound t rest
    | _ => none

/-- Read a value in which arrays and tables nest up to `depth` deep. -/
def item? : (depth : Nat) → ReadItem
  | depth, cs =>
    match cs with
    | '[' :: rest =>
      match depth with
      | 0 => none
      | depth + 1 => (elements? (item? depth) (rest.length + 1) rest).map (.array, ·)
    | '{' :: rest =>
      match depth with
      | 0 => none
      | depth + 1 =>
        match skipSpaces rest with
        | '}' :: rest => some (.table, rest)
        | rest => (pairs? (item? depth) (rest.length + 1) {} rest).map (.table, ·)
    | _ =>
      if startsQuoted cs then (quoted cs).map fun (text, rest) => (.text (String.ofList text), rest)
      else
        let (written, rest) := takeScalar cs
        (scalar? written).map fun s => (.scalar s, rest)

/-! ## Documents -/

/-- Read the names in a header and the text behind its closing brackets. -/
def header? (brackets : Nat) (cs : List Char) : Option (List String × List Char) := do
  let (names, rest) ← keys? maxDepth cs
  let rest ← (List.replicate brackets ']').foldlM (fun rest c => expect? c rest) rest
  return (names, rest)

/-- Read lines into a tree, `here` being the table that is open. -/
def lines? : (bound : Nat) → (here : Path) → Tree → List Char → Option Tree
  | 0, _, _, _ => none
  | bound + 1, here, t, cs =>
    match skipAll false cs with
    | [] => some t
    | '[' :: '[' :: rest => do
      let (names, rest) ← header? 2 rest
      let (here, t) ← t.openNext names
      lines? bound here t (← lineEnd? rest)
    | '[' :: rest => do
      let (names, rest) ← header? 1 rest
      let (here, t) ← t.openTable names
      lines? bound here t (← lineEnd? rest)
    | cs => do
      let ((names, item), rest) ← pair? (item? maxDepth) cs
      let t ← t.addPair here names item
      lines? bound here t (← lineEnd? rest)

/-- Read a document; a byte order mark before it does not count. -/
def Tree.ofText? (s : String) : Option Tree :=
  let cs := match s.toList with
    | '\uFEFF' :: rest => rest
    | cs => cs
  lines? (cs.length + 1) [] {} (joinBreaks cs)

end LineScript.Toml
