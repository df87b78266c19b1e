/-
# Extensions

An extension adds keywords, labels, globals and types.  What its keywords do is code of its host, which
sees the statement and may look at the machine.

The registry merges the extensions.  A keyword that two of them add belongs to the later one; the targets
of a label gather.  While a keyword runs, its extension is taken out of its slot, so that it cannot be
entered again before it is done.

A program panics when it looks into a slot that is not there.  Nothing goes on behind that, so there is no
answer then (`none`); it happens only where something is looked at for an event that a log is to show.
-/
import LineScript.Argument.Descriptor
import LineScript.Conduct
import LineScript.Roster
import LineScript.Text.Blank

namespace LineScript

open LineScript.Text

/-! ## Extensions -/

/-- One checked statement as a keyword gets it. -/
structure Invocation where
  keyword : String
  labels : List String := []
  args : List Token := []
  /-- The line of the statement, counted from zero. -/
  line : Nat := 0
  deriving Repr, Inhabited

namespace Invocation

/-- Does a label stand before the keyword? -/
def hasLabel (i : Invocation) (label : String) : Bool := i.labels.contains label

/-- The value of an argument. -/
def value? (i : Invocation) (position : Nat) : Option Value := i.args[position]?.map (·.value)

/-- The text of an argument. -/
def text? (i : Invocation) (position : Nat) : Option String := i.args[position]?.map (·.text)

/-- The value of an argument that checking has made sure of. -/
def value (i : Invocation) (position : Nat) : Except Fault Value :=
  match i.value? position with
  | some v => .ok v
  | none => .error (.argumentAbsent i.keyword position)

/-- The text of an argument that checking has made sure of. -/
def text (i : Invocation) (position : Nat) : Except Fault String :=
  match i.text? position with
  | some t => .ok t
  | none => .error (.argumentAbsent i.keyword position)

end Invocation

/-- A keyword that an extension adds. -/
structure Keyword where
  name : String
  descriptors : List Descriptor := []

/-- A label and the keywords it may stand before. -/
structure Label where
  name : String
  targets : List String := []
  deriving DecidableEq, Repr, Inhabited

/-- A provider of keywords, globals, labels and types. -/
structure Extension where
  id : String
  keywords : List Keyword := []
  globals : List (String × Value) := []
  labels : List Label := []
  types : List WordType := []
  /-- What a keyword of the extension does with a statement, as it finds the machine. -/
  call : Invocation → Look → Conduct Look := fun _ _ => .answer (.ok ())
  deriving Inhabited

/-! ## The registry -/

/-- A registered extension. -/
structure Slot where
  /-- The name by which scripts require the extension. -/
  id : String
  extension : Extension
  /-- One of its keywords is running. -/
  busy : Bool := false
  deriving Inhabited

/-- A registered keyword. -/
structure Owned where
  /-- The slot of its extension. -/
  owner : Nat
  descriptors : List Descriptor
  deriving Repr, Inhabited

/-- The registered extensions, merged. -/
structure Registry where
  slots : Array Slot := #[]
  keywords : Roster Owned := {}
  labels : Roster (List String) := {}
  types : List WordType := []
  deriving Inhabited

namespace Registry

/-- The names of the registered extensions, in order. -/
def ids (r : Registry) : List String := r.slots.toList.map (·.id)

/-- Is an extension of this name registered? -/
def has (r : Registry) (id : String) : Bool := r.ids.contains id

/-- The keywords that a label may stand before. -/
def label? (r : Registry) (name : String) : Option (List String) := r.labels.find? name

/-- Is this the name of a label? -/
def isLabel (r : Registry) (name : String) : Bool := r.labels.has name

/-- The name of the extension that a keyword belongs to. -/
def ownerId? (r : Registry) (keyword : String) : Option String := do
  let owned ← r.keywords.find? keyword
  let slot ← r.slots[owned.owner]?
  return slot.id

/-- Add targets to a label. -/
def addLabel (r : Registry) (l : Label) : Registry :=
  { r with labels := r.labels.enter l.name (l.targets.foldl withElement ((r.label? l.name).getD [])) }

/-- Give a keyword to the extension in a slot. -/
def giveKeyword (owner : Nat) (r : Registry) (k : Keyword) : Registry :=
  { r with keywords := r.keywords.enter k.name ⟨owner, k.descriptors⟩ }

/-- Give a keyword to the extension in a slot.  With debug events a log shows from whom the keyword is taken,
so the slot of its owner up to now is looked at before. -/
def addKeyword (debug : Bool) (owner : Nat) (r : Registry) (k : Keyword) : Option Registry := do
  if debug then
    if let some previous := r.keywords.find? k.name then
      let _ ← r.slots[previous.owner]?
  return r.giveKeyword owner k

/-- Register an extension; its globals are for the caller to provide.  Its keywords go to a slot that is there
only when everything else is done. -/
def insert (debug : Bool) (e : Extension) (r : Registry) : Option (Except Fault Registry) :=
  let id := trim e.id
  if id.isEmpty then some (.error .anonymousExtension)
  else if r.has id then some (.error (.extensionTaken id))
  else do
    let r ← e.keywords.foldlM (addKeyword debug r.slots.size) r
    let r := e.labels.foldl addLabel r
    return .ok { r with types := r.types ++ e.types, slots := r.slots.push { id := id, extension := e } }

/-- Take an extension out of its slot to run one of its keywords. -/
def take (r : Registry) (owner : Nat) : Except Fault (Extension × Registry) :=
  match r.slots[owner]? with
  | none => .error (.extensionAbsent owner)
  | some slot =>
    if slot.busy then .error (.extensionReentered slot.id)
    else .ok (slot.extension, { r with slots := r.slots.setIfInBounds owner { slot with busy := true } })

/-- Put an extension back into its slot. -/
def restore (r : Registry) (owner : Nat) : Registry :=
  { r with slots := r.slots.modify owner fun slot => { slot with busy := false } }

/-- The registry before any extension: the labels of the built-in keywords. -/
def initial : Registry :=
  (({} : Registry).addLabel ⟨"global", ["var", "set"]⟩).addLabel ⟨"non-destructive", ["restart"]⟩

end Registry

end LineScript
