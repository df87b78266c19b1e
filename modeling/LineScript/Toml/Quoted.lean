/-
# Strings of TOML

A string stands between quotes, which allow escapes, or between apostrophes, which do not.  Three marks open
a string of several lines: a line break right after them does not count, and up to two of the marks may
stand at the very end of the text, before the three that close it.

All functions here take a text whose line breaks are single line feeds and that starts behind the opening
mark.  They answer the contents and the text behind the closing mark.
-/
namespace LineScript.Toml

/-! ## Characters -/

/-- A blank inside of a line. -/
def isSpace (c : Char) : Bool := c == ' ' || c == '\t'

/-- A character that comments may hold: no control character but the tab. -/
def isVisible (c : Char) : Bool := c == '\t' || (' ' ≤ c && c.toNat ≠ 0x7F)

/-- The value of a hexadecimal digit. -/
def hexDigit? (c : Char) : Option Nat :=
  if '0' ≤ c && c ≤ '9' then some (c.toNat - '0'.toNat)
  else if 'a' ≤ c && c ≤ 'f' then some (c.toNat - 'a'.toNat + 10)
  else if 'A' ≤ c && c ≤ 'F' then some (c.toNat - 'A'.toNat + 10)
  else none

/-- The value of some hexadecimal digits. -/
def hexValue? (cs : List Char) : Option Nat :=
  cs.foldlM (fun n c => (hexDigit? c).map (16 * n + ·)) 0

/-- The character of some hexadecimal digits. -/
def hexChar? (cs : List Char) : Option Char := do
  let n ← hexValue? cs
  if n.isValidChar then some (Char.ofNat n) else none

/-- The character of a one-letter escape. -/
def escape? : Char → Option Char
  | 'b' => some '\x08'
  | 't' => some '\t'
  | 'n' => some '\n'
  | 'f' => some '\x0c'
  | 'r' => some '\r'
  | '"' => some '"'
  | '\\' => some '\\'
  | _ => none

/-- What reading a string answers. -/
abbrev Quoted := Option (List Char × List Char)

/-- A character before the contents. -/
def Quoted.push (c : Char) (q : Quoted) : Quoted := q.map fun (text, rest) => (c :: text, rest)

/-- The contents after an escape that may fail. -/
def Quoted.escaped (c : Option Char) (q : Quoted) : Quoted :=
  match c with
  | some c => q.push c
  | none => none

/-! ## Strings of one line -/

/-- Read a string between quotes. -/
def basic : List Char → Quoted
  | [] => none
  | '\\' :: 'u' :: a :: b :: c :: d :: rest => (basic rest).escaped (hexChar? [a, b, c, d])
  | '\\' :: 'U' :: a :: b :: c :: d :: e :: f :: g :: h :: rest =>
    (basic rest).escaped (hexChar? [a, b, c, d, e, f, g, h])
  | '\\' :: e :: rest => (basic rest).escaped (escape? e)
  | c :: rest =>
    if c = '"' then some ([], rest)
    else if c ≠ '\\' && isVisible c then (basic rest).push c
    else none

/-- Read a string between apostrophes. -/
def literal : List Char → Quoted
  | [] => none
  | c :: rest =>
    if c = '\'' then some ([], rest)
    else if isVisible c then (literal rest).push c
    else none

/-! ## Strings of several lines -/

/-- Up to two more marks after three of them belong to the contents. -/
def closing (mark : Char) : List Char → List Char × List Char
  | a :: b :: rest =>
    if a = mark && b = mark then ([mark, mark], rest)
    else if a = mark then ([mark], b :: rest)
    else ([], a :: b :: rest)
  | [a] => if a = mark then ([mark], []) else ([], [a])
  | [] => ([], [])

/-- What the blanks being read mean. -/
inductive Gap
  /-- They are contents. -/
  | none
  /-- A backslash stands before them, so a line break must follow. -/
  | opened
  /-- They follow that line break and do not count. -/
  | broken

/-- Read a string of several lines between quotes.  A backslash at the end of a line drops the line break
and all blanks after it. -/
def multiBasic : Gap → List Char → Quoted
  | _, [] => none
  | .opened, c :: rest =>
    if isSpace c then multiBasic .opened rest
    else if c = '\n' then multiBasic .broken rest
    else none
  | _, '"' :: '"' :: '"' :: rest => some (closing '"' rest)
  | _, '\\' :: 'u' :: a :: b :: c :: d :: rest =>
    (multiBasic .none rest).escaped (hexChar? [a, b, c, d])
  | _, '\\' :: 'U' :: a :: b :: c :: d :: e :: f :: g :: h :: rest =>
    (multiBasic .none rest).escaped (hexChar? [a, b, c, d, e, f, g, h])
  | _, '\\' :: e :: rest =>
    if e = '\n' then multiBasic .broken rest
    else if isSpace e then multiBasic .opened rest
    else (multiBasic .none rest).escaped (escape? e)
  | .broken, c :: rest =>
    if isSpace c || c == '\n' then multiBasic .broken rest
    else if c ≠ '\\' && isVisible c then (multiBasic .none rest).push c
    else none
  | .none, c :: rest =>
    if c = '\n' || (c ≠ '\\' && isVisible c) then (multiBasic .none rest).push c
    else none

/-- Read a string of several lines between apostrophes. -/
def multiLiteral : List Char → Quoted
  | [] => none
  | '\'' :: '\'' :: '\'' :: rest => some (closing '\'' rest)
  | c :: rest => if c = '\n' || isVisible c then (multiLiteral rest).push c else none

/-! ## All strings -/

/-- The text behind a line break that follows the opening marks. -/
def afterBreak : List Char → List Char
  | '\n' :: rest => rest
  | cs => cs

/-- Read a string, its opening marks included. -/
def quoted : List Char → Quoted
  | '"' :: '"' :: '"' :: rest => multiBasic .none (afterBreak rest)
  | '\'' :: '\'' :: '\'' :: rest => multiLiteral (afterBreak rest)
  | '"' :: rest => basic rest
  | '\'' :: rest => literal rest
  | _ => none

/-- Does a text start with a string? -/
def startsQuoted : List Char → Bool
  | '"' :: _ | '\'' :: _ => true
  | _ => false

end LineScript.Toml
