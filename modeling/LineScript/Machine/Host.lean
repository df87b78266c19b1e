/-
# What a host does with a machine

Loading a script, registering extensions, starting and stopping.  A start drops all that an earlier run
made, checks what the script asks for, and leaves the machine running from the first line.
-/
import LineScript.Machine.Run

namespace LineScript

namespace Machine

/-! ## Loading -/

/-- The name of a script: its own, else the one it is loaded under, else the one of the settings. -/
def scriptName (s : Settings) (notes : Notes) (name : String) : String :=
  (notes.displayName <|> if name.isEmpty then none else some name).getD s.displayName

/-- Load a script in place of the one before. -/
def load (text name : String) : Act Unit := do
  let script ← Act.ofExcept (Script.ofText? text)
  modify fun m =>
    let displayName := scriptName m.settings script.notes name
    let console :=
      if m.settings.tagMessages then { m.console with tag := some displayName } else m.console
    { { m with
        script := script
        loaded := true
        displayName := displayName
        strict := script.notes.strict
        budget := script.notes.budget.getD m.settings.budget
        console := console }.hardReset with
      mode := .idle
      lastReport := none }

/-- Register an extension and provide its globals, with debug events or without.  There is no answer if the
program panics. -/
def register (debug : Bool) (e : Extension) (m : Machine) : Option (Except Fault Unit × Machine) :=
  (m.registry.insert debug e).map fun
    | .error f => (.error f, m)
    | .ok registry => (.ok (), { m with
        registry := registry
        symbols := e.globals.foldl (fun s (name, value) => s.provide name value) m.symbols })

/-! ## Starting -/

/-- What stands against a start. -/
def checkStart (m : Machine) : Except Fault Unit := do
  if !m.loaded then throw .noScript
  m.settings.check
  if let some id := m.script.notes.required.find? (!m.registry.has ·) then
    throw (.extensionMissing id)
  if let some wanted := m.script.notes.environment then
    if wanted ≠ m.settings.environment then throw (.wrongEnvironment wanted m.settings.environment)

/-- Make ready to run from the first line. -/
def prepare (m : Machine) : Machine :=
  { m.hardReset with lastReport := none, mode := .running }

/-- Make ready to run from the first line, unless something stands against it. -/
def launch : Act Unit := fun m =>
  match m.checkStart with
  | .error f => (.error f, fail f { m with executing := none })
  | .ok () => (.ok (), m.prepare)

/-- Start the script, or go on after a halt.  With the setting to run to completion all of the script runs
at once, and `none` is the answer when `fuel` rounds are not enough for that. -/
def start (fuel : Nat) (m : Machine) : Option (Except Fault Unit × Machine) :=
  if m.mode = .paused then some (.ok (), m.resume)
  else
    match launch m with
    | (.error f, m') => some (.error f, m')
    | (.ok (), m') =>
      if m'.settings.runToCompletion then
        (m'.run fuel none).map fun (result, m'') => (result.map fun _ => (), m'')
      else some (.ok (), m')

/-- Start with another budget of statements for each tick. -/
def startWith (fuel budget : Nat) (m : Machine) : Option (Except Fault Unit × Machine) :=
  if budget = 0 then some (.error .zeroBudget, fail .zeroBudget m)
  else start fuel { m with budget := budget }

/-! ## Looking at a machine -/

/-- The value of a local variable. -/
def localValue? (m : Machine) (name : String) : Option Value :=
  (m.symbols.locals.find? name).bind (·.value)

/-- The value of a global variable. -/
def globalValue? (m : Machine) (name : String) : Option Value :=
  (m.symbols.globals.find? name).bind (·.value)

end Machine

end LineScript
