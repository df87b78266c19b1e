/-
# The machine

The state of a running script: its lines and notes, the names and objects it made, the console, and where
the run is.  What a host should hear of is appended to `Machine.events`.

An `Act` is a step of the machine that may end in a fault.  What it did before the fault stays done.
-/
import LineScript.Comparison
import LineScript.Extension
import LineScript.Member

namespace LineScript

open LineScript.Decimal

/-! ## Contexts and events -/

/-- What one nesting level of a statement leaves for the statement after it.  The outermost level lasts
from line to line; inner ones live as long as a line. -/
structure Context where
  lastKeyword : Option String := none
  /-- A condition of the chain has held. -/
  satisfied : Bool := false
  canElse : Bool := false
  deriving DecidableEq, Repr, Inhabited

/-- What a host hears of. -/
inductive Event
  | logged (text : String)
  | warned (warning : Warning)
  | failed (report : Report)
  /-- A keyword of an extension runs. -/
  | called (extension : String) (invocation : Invocation)
  deriving Repr, Inhabited

/-! ## The state -/

/-- The state of a machine. -/
structure Machine where
  settings : Settings := {}
  /-- How the host searches texts for patterns. -/
  search : Search := fun _ _ => none
  script : Script := {}
  loaded : Bool := false
  displayName : String := "script"
  /-- How many statements a tick may run. -/
  budget : Nat := 1
  /-- Cautions are faults. -/
  strict : Bool := false
  symbols : Symbols := {}
  objects : Objects := {}
  registry : Registry := .initial
  console : Console := {}
  mode : Mode := .idle
  /-- The wait that a pause interrupted. -/
  savedWait : Option Wait := none
  /-- The line that runs next, or is running, counted from zero. -/
  cursor : Nat := 0
  /-- The line for reports; nothing for statements of the host. -/
  executing : Option Nat := none
  /-- One context for each nesting level, the outermost first. -/
  contexts : List Context := [{}]
  /-- The class that property lines belong to. -/
  openClass : Option String := none
  /-- The object that property lines belong to. -/
  openObject : Option Nat := none
  /-- The arguments whose missing type has been warned about, with their keywords. -/
  warnedArguments : List (String × String) := []
  lastReport : Option Report := none
  lastKey : Option String := none
  /-- What happened, for the host to hear, the oldest first. -/
  events : Array Event := #[]
  deriving Inhabited

/-- A machine without script, on a host that searches texts in some way. -/
def Machine.ofSettings (s : Settings) (search : Search) : Machine where
  settings := s
  search := search
  displayName := s.displayName
  budget := s.budget
  console := {
    grouping := s.groupMessages
    tag := if s.tagMessages then some s.displayName else none
    timestamps := s.timestampMessages }

/-- A step of the machine, which may end in a fault. -/
abbrev Act (α : Type) := ExceptT Fault (StateM Machine) α

/-- A fault or a result, as a step. -/
def Act.ofExcept {α : Type} (e : Except Fault α) : Act α := fun m => (e, m)

/-- A step, and after it, whether it ended in a fault or not, a change of the state. -/
def Act.finally {α : Type} (a : Act α) (change : Machine → Machine) : Act α := fun m =>
  let (result, m') := a m
  (result, change m')

namespace Machine

/-- A look at the machine. -/
def look (m : Machine) : Look where
  settings := m.settings
  script := m.script
  loaded := m.loaded
  displayName := m.displayName
  budget := m.budget
  strict := m.strict
  symbols := m.symbols
  objects := m.objects
  extensions := m.registry.ids
  console := m.console
  mode := m.mode
  cursor := m.cursor
  lastReport := m.lastReport
  lastKey := m.lastKey

/-! ## Messages -/

/-- Let the host hear of something. -/
def emit (e : Event) (m : Machine) : Machine := { m with events := m.events.push e }

/-- The running line, counted from one. -/
def lineNumber (m : Machine) : Option Nat := m.executing.map (· + 1)

/-- Print a message on the console. -/
def print (message : String) (m : Machine) : Machine :=
  let text := m.console.shown message m.executing
  { m with console := m.console.print message m.executing }.emit (.logged text)

/-- Warn the host; in strict mode a fault. -/
def warn (c : Caution) : Act Unit := do
  let m ← get
  if m.strict then throw (.strict c)
  else set (m.emit (.warned ⟨c.message, m.lineNumber⟩))

/-- Meet an operation that the settings do not allow. -/
def disallow (c : Caution) : Act Unit := do
  if (← get).settings.haltOnDisallowed then throw (.forbidden c)
  else warn c

/-- The report of a fault that arises now. -/
def report (m : Machine) (f : Fault) : Report where
  kind := f.kind
  message := f.message
  line := m.lineNumber
  file := m.displayName
  stack := m.symbols.calls.map fun frame =>
    s!"{frame.function} (called from line {naturalText (frame.returnLine + 1)})"
  extensions := if f.isOfLanguage then [] else m.registry.ids

/-- End the run with a fault. -/
def fail (f : Fault) (m : Machine) : Machine :=
  let r := m.report f
  let m := if m.settings.reportErrors then m.emit (.failed r) else m
  { m with mode := .failed, lastReport := some r }

/-- A step whose fault ends the run. -/
def guarded {α : Type} (a : Act α) : Act α :=
  tryCatch a fun f => do
    modify (fail f)
    throw f

/-! ## Resets -/

/-- Go back to the first line, outside of all statements. -/
def rewind (m : Machine) : Machine :=
  { m with cursor := 0, savedWait := none, contexts := [{}], openClass := none, openObject := none }

/-- Drop all that the script made. -/
def hardReset (m : Machine) : Machine :=
  { m with symbols := m.symbols.clear, objects := {}, console := m.console.clear }.rewind

/-- Keep values, and let everything be declared again. -/
def softReset (m : Machine) : Machine :=
  { m with symbols := m.symbols.resetPass, objects := m.objects.resetPass }.rewind

/-! ## Stores and contexts -/

/-- Change the names by an operation that may fail. -/
def onSymbols (f : Symbols → Except Fault Symbols) : Act Unit := do
  let m ← get
  let symbols ← Act.ofExcept (f m.symbols)
  set { m with symbols := symbols }

/-- Change the names by an operation that may fail and answers something. -/
def onSymbolsReply {α : Type} (f : Symbols → Except Fault (α × Symbols)) : Act α := do
  let m ← get
  let (reply, symbols) ← Act.ofExcept (f m.symbols)
  set { m with symbols := symbols }
  return reply

/-- Change the objects by an operation that may fail. -/
def onObjects (f : Objects → Except Fault Objects) : Act Unit := do
  let m ← get
  let objects ← Act.ofExcept (f m.objects)
  set { m with objects := objects }

/-- Look a name up. -/
def lookup (name : String) (reach : Reach) : Act Value := do
  Act.ofExcept ((← get).symbols.lookup name reach)

/-- The context of a nesting level. -/
def context (depth : Nat) : Act Context := do
  match (← get).contexts[depth]? with
  | some c => return c
  | none => throw (.contextAbsent depth)

/-- Change the context of a nesting level, if there is one. -/
def changeContext (depth : Nat) (f : Context → Context) (m : Machine) : Machine :=
  { m with contexts := m.contexts.modify depth f }

/-- Make sure that a nesting level has a context. -/
def openContext (depth : Nat) (m : Machine) : Machine :=
  if m.contexts.length ≤ depth then { m with contexts := m.contexts ++ [{}] } else m

end Machine

end LineScript
