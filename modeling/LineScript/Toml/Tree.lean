/-
# The tables of a TOML document

A document is kept flat: `Tree` knows for each path what stands there.  A path names keys, and positions in
arrays of tables.

A table is defined once.  Its `Origin` tells what may still be added: a table that longer headers or keys
have only passed through can get its header later, one that dotted keys made takes more dotted keys, and one
with a header takes no dotted keys from outside.
-/
import LineScript.Toml.Scalar

namespace LineScript.Toml

/-- A value in a document.  What arrays and inline tables hold is read and then forgotten. -/
inductive Item
  | text (s : String)
  | scalar (s : Scalar)
  | array
  | table
  deriving DecidableEq, Repr, Inhabited

/-! ## Paths -/

/-- One step into a document. -/
inductive Step
  | key (name : String)
  /-- A table in an array of tables, counted from zero. -/
  | position (n : Nat)
  deriving DecidableEq, Repr

/-- The way from the root to a place in a document. -/
abbrev Path := List Step

/-- How a table came about. -/
inductive Origin
  /-- It has a header. -/
  | header
  /-- A longer header goes through it. -/
  | passed
  /-- Dotted keys go through it. -/
  | dotted
  deriving DecidableEq, Repr

/-- What stands at a path. -/
inductive Entry
  | value (item : Item)
  | table (origin : Origin)
  /-- An array of so many tables, at least one. -/
  | tables (count : Nat)
  deriving DecidableEq, Repr

/-- What stands at each path, the latest first. -/
structure Tree where
  entries : List (Path × Entry) := []
  deriving Repr, Inhabited

namespace Tree

/-- What stands at a path. -/
def find? (t : Tree) (p : Path) : Option Entry := t.entries.lookup p

/-- Let something stand at a path. -/
def put (t : Tree) (p : Path) (e : Entry) : Tree := ⟨(p, e) :: t.entries⟩

/-- What stands under a key of the root. -/
def root? (t : Tree) (name : String) : Option Entry := t.find? [.key name]

/-! ## Definitions -/

/-- Go down along keys and answer the path of the table they lead to.  New tables get an origin. -/
def descend (origin : Origin) (t : Tree) (base : Path) : List String → Option (Path × Tree)
  | [] => some (base, t)
  | name :: names =>
    let p := base ++ [.key name]
    match t.find? p with
    | none => (t.put p (.table origin)).descend origin p names
    | some (.value _) => none
    | some (.tables count) => t.descend origin (p ++ [.position (count - 1)]) names
    | some (.table held) =>
      if origin = .dotted && held = .header then none else t.descend origin p names

/-- Give a value to a dotted key of a table. -/
def addPair (t : Tree) (here : Path) (names : List String) (item : Item) : Option Tree := do
  let last ← names.getLast?
  let (p, t) ← t.descend .dotted here names.dropLast
  guard (names.length = 1 ∨ t.find? p = some (.table .dotted))
  let p := p ++ [.key last]
  guard ((t.find? p).isNone)
  return t.put p (.value item)

/-- Open a table by its header and answer its path. -/
def openTable (t : Tree) (names : List String) : Option (Path × Tree) := do
  let last ← names.getLast?
  let (p, t) ← t.descend .passed [] names.dropLast
  let p := p ++ [.key last]
  match t.find? p with
  | none | some (.table .passed) => return (p, t.put p (.table .header))
  | _ => none

/-- Open one more table of an array of tables and answer its path. -/
def openNext (t : Tree) (names : List String) : Option (Path × Tree) := do
  let last ← names.getLast?
  let (p, t) ← t.descend .passed [] names.dropLast
  let p := p ++ [.key last]
  let count ← match t.find? p with
    | none => some 0
    | some (.tables count) => some count
    | _ => none
  let next := p ++ [.position count]
  return (next, (t.put p (.tables (count + 1))).put next (.table .header))

end Tree

end LineScript.Toml
