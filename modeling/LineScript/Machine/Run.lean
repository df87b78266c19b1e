/-
# Running a script

The cursor moves over the lines of the script.  Blank lines, directives and the bodies of functions that
are being declared are passed over and cost nothing; every other line is a statement.  A tick runs up to a
budget of statements, and `Machine.run` goes on until the script ends, fails, halts or waits for a key.

Keywords of extensions may ask for more statements and ticks.  While one runs its extension is busy, so
calls nest no deeper than there are extensions; `invoke` takes that number as its bound.
-/
import LineScript.Machine.Statement

namespace LineScript

open LineScript.Text

namespace Machine

/-! ## Lines without statements -/

/-- Is this the line that closes the body of a function? -/
def closes (m : Machine) (name line : String) : Bool :=
  match tokenizeInert m.registry.types line with
  | .ok [keyword, function] => keyword.text == "end" && function.text == name
  | _ => false

/-- Is this line a statement to run? -/
def counts (m : Machine) (line : String) : Bool :=
  !isPassive line && m.symbols.declaring.isNone

/-- Pass over a line without statement.  In the body of a function that is being declared only its `end`
matters. -/
def pass (m : Machine) (line : String) : Machine :=
  let m := { m with executing := some m.cursor }
  let symbols :=
    if isPassive line then m.symbols
    else match m.symbols.declaring with
      | some name => if m.closes name line then m.symbols.finishDeclaration m.cursor else m.symbols
      | none => m.symbols
  { m with symbols := symbols, cursor := m.cursor + 1 }

/-- Pass over lines up to the next statement, `bound` being the number of lines that are left. -/
def passOver : (bound : Nat) → Machine → Machine
  | 0, m => m
  | bound + 1, m =>
    match m.script.lines[m.cursor]? with
    | none => m
    | some line => if m.counts line then m else passOver bound (m.pass line)

/-- Move the cursor to the next statement, or behind the last line. -/
def settle (m : Machine) : Machine := passOver (m.script.lines.size - m.cursor) m

/-- A running script that has no more lines is finished. -/
def finishIfDone (m : Machine) : Machine :=
  if m.mode = .running ∧ m.script.lines.size ≤ m.cursor then { m with mode := .finished } else m

/-! ## Statements and ticks -/

/-- Run the line under the cursor and move the cursor on. -/
def runCursorLine (invoke : Invoke) : Act Unit := do
  let m ← get
  match m.script.lines[m.cursor]? with
  | none => pure ()
  | some line =>
    set { m with executing := some m.cursor }
    let next ← runLine invoke line
    modify ({ · with cursor := next.getD (m.cursor + 1) })

/-- Run up to `budget` statements, as long as the script is running. -/
def spend (invoke : Invoke) : (budget : Nat) → Act Unit
  | 0 => pure ()
  | budget + 1 => do
    if (← get).mode = .running then
      modify fun m => m.settle.finishIfDone
      if (← get).mode = .running then
        guarded (runCursorLine invoke)
        spend invoke budget

/-- One tick less to wait. -/
def countDown (left : Nat) (m : Machine) : Machine :=
  { m with mode := if left ≤ 1 then .running else .waiting (.ticks (left - 1)) }

/-- A tick: count down a wait, or run some statements. -/
def tickWith (invoke : Invoke) : Act Unit := do
  match (← get).mode with
  | .waiting (.ticks left) => modify (countDown left)
  | .running =>
    spend invoke (← get).budget
    modify finishIfDone
  | _ => pure ()

/-! ## Statements and keys from outside -/

/-- Run a line outside of the script. -/
def executeWith (invoke : Invoke) (text : String) : Act Unit := do
  let line := trim (stripComment text)
  if !isPassive line then
    modify ({ · with executing := none })
    if let some target ← runLine invoke line then
      modify ({ · with cursor := target })

/-- Halt, remembering a wait. -/
def pause (m : Machine) : Machine :=
  match m.mode with
  | .running => { m with mode := .paused, savedWait := none }
  | .waiting w => { m with mode := .paused, savedWait := some w }
  | _ => m

/-- Go on after a halt. -/
def resume (m : Machine) : Machine :=
  match m.mode with
  | .paused =>
    { m with mode := (m.savedWait.map Mode.waiting).getD .running, savedWait := none }
  | _ => m

/-- Halt and drop all that the script made. -/
def stop (m : Machine) : Machine := { m.hardReset with mode := .idle }

/-- The name of the global that holds the last key. -/
def lastKeyName : String := "lastkey"

/-- Does a key end a wait? -/
def endsWait (key : String) : Mode → Bool
  | .waiting (.key none) => true
  | .waiting (.key (some name)) => name == key
  | _ => false

/-- Deliver a key to the script. -/
def deliverKey (key : String) (m : Machine) : Machine :=
  let m := { m with
    lastKey := some key
    symbols := m.symbols.provide lastKeyName (.string key) }
  if endsWait key m.mode then { m with mode := .running } else m

/-- Provide a global variable. -/
def provide (name : String) (value : Value) (m : Machine) : Machine :=
  { m with symbols := m.symbols.provide name value }

/-! ## Keywords of extensions -/

/-- Carry out a request of a running keyword. -/
def runRequest (invoke : Invoke) : Request → Act Unit
  | .log message => modify (print message)
  | .provide name value => modify (provide name value)
  | .execute line => executeWith invoke line
  | .tick => tickWith invoke
  | .pause => modify pause
  | .stop => modify stop
  | .key name => modify (deliverKey name)

/-- Carry out what a keyword does that sees some view of the machine. -/
def runConduct {View : Type} (view : Machine → View) (invoke : Invoke) : Conduct View → Act Unit
  | .answer result => Act.ofExcept result
  | .ask r next => fun m =>
    let (result, k) := runRequest invoke r m
    runConduct view invoke (next result (view k)) k

/-- Take an extension out of its slot. -/
def takeExtension (owner : Nat) : Act Extension := do
  let m ← get
  let (e, registry) ← Act.ofExcept (m.registry.take owner)
  set { m with registry := registry }
  return e

/-- Put an extension back. -/
def restoreExtension (owner : Nat) (m : Machine) : Machine :=
  { m with registry := m.registry.restore owner }

/-- Run a keyword of the extension in a slot, keywords nesting at most `bound` deep.  The extension is back
in its slot afterwards, whether the keyword failed or not. -/
def invoke : (bound : Nat) → Invoke
  | 0, owner, _ => do
    let _ ← takeExtension owner
    modify (restoreExtension owner)
  | bound + 1, owner, i => do
    let e ← takeExtension owner
    let body : Act Unit := do
      modify (emit (.called e.id i))
      runConduct look (invoke bound) (e.call i (← get).look)
    body.finally (restoreExtension owner)

/-- The bound that a machine needs: one level for each extension. -/
def nesting (m : Machine) : Nat := m.registry.slots.size

/-- A tick. -/
def tick : Act Unit := do tickWith (invoke (← get).nesting)

/-- Run a line outside of the script. -/
def execute (text : String) : Act Unit := do executeWith (invoke (← get).nesting) text

/-! ## Whole runs -/

/-- Run until the script ends, fails, halts or waits for a key, or has run `limit` statements; countdowns
pass at once.  The answer is the number of statements, and `none` when `fuel` rounds were not enough. -/
def runFrom (limit : Option Nat) : (fuel : Nat) → (count : Nat) → Machine →
    Option (Except Fault Nat × Machine)
  | 0, _, _ => none
  | fuel + 1, count, m =>
    match m.mode with
    | .waiting (.ticks left) => runFrom limit fuel count (m.countDown left)
    | .running =>
      let m := m.finishIfDone
      if m.mode ≠ .running ∨ limit.any (· ≤ count) then some (.ok count, m)
      else
        let m := m.settle.finishIfDone
        if m.mode ≠ .running then some (.ok count, m)
        else
          match guarded (runCursorLine (invoke m.nesting)) m with
          | (.ok (), m') => runFrom limit fuel (count + 1) m'
          | (.error f, m') => some (.error f, m')
    | _ => some (.ok count, m)

/-- Run a script to its end, or up to a limit of statements. -/
def run (fuel : Nat) (limit : Option Nat) (m : Machine) : Option (Except Fault Nat × Machine) :=
  runFrom limit fuel 0 m

end Machine

end LineScript
