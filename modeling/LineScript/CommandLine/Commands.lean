/-
# Running and checking files

What the two commands do.  They see files through a function that reads one or tells why it cannot.

A script that runs asks its surroundings for ticks and for keys.  `Machine.need` tells what it asks for
next, and `play` serves it without a clock, from a list of keys, until it asks for nothing more.
-/
import LineScript.CommandLine.Arguments
import LineScript.CommandLine.Outcome
import LineScript.Settings.Reader
import LineScript.Machine.Host
import LineScript.Pattern.Condition

namespace LineScript

open LineScript.Text LineScript.Decimal

/-- What reads a file or tells why it cannot. -/
abbrev Files := String → Except String String

/-! ## Making ready -/

/-- The name of a script: the last part of its path without its last extension. -/
def nameOfPath (path : String) : String :=
  let parts := (pieces '/' path.toList).filter fun p => p ≠ [] ∧ p ≠ ['.']
  match parts.getLast? with
  | none => "script"
  | some part =>
    if part = ['.', '.'] then "script"
    else match cut '.' part.reverse with
      | some (_, stem) => String.ofList (if stem.isEmpty then part else stem.reverse)
      | none => String.ofList part

/-- Read the file of a script. -/
def readScript (files : Files) (path : String) : Except Failure String :=
  (files path).mapError fun reason => ⟨s!"failed to read '{path}'", some reason⟩

/-- Read the settings in a file. -/
def readSettings (files : Files) (path : String) : Except Fault Settings :=
  match files path with
  | .error reason => .error (.settingsUnreadable path reason)
  | .ok text => Settings.ofText? text

/-- The settings for a run: those of the file, changed by the options. -/
def RunOptions.settings (o : RunOptions) (files : Files) : Except Failure Settings := do
  let s ← match o.config with
    | none => pure {}
    | some path =>
      (readSettings files path).mapError fun f => ⟨s!"failed to load config '{path}'", some f.display⟩
  return { s with
    verbose := s.verbose || o.verbose
    budget := o.budget.getD s.budget
    tickInterval := o.interval.getD s.tickInterval }

/-- The machine for a run, with its script loaded. -/
def RunOptions.machine (o : RunOptions) (files : Files) (path : String) : Except Failure Machine := do
  let settings ← o.settings files
  let text ← readScript files path
  match Machine.load text (nameOfPath path) (Machine.ofSettings settings Pattern.search?) with
  | (.ok (), m) => return m
  | (.error f, _) => throw ⟨f.display, none⟩

/-! ## Running -/

/-- What a machine asks its surroundings for. -/
inductive Need
  | tick
  | key
  /-- Nothing: the script is over or idle. -/
  | nothing
  /-- Nothing: the script has halted. -/
  | release
  /-- Nothing: the script has failed. -/
  | repair
  deriving DecidableEq, Repr

/-- What a machine asks for next. -/
def Machine.need (m : Machine) : Need :=
  match m.mode with
  | .running | .waiting (.ticks _) => .tick
  | .waiting (.key _) => .key
  | .paused => .release
  | .failed => .repair
  | .finished | .idle => .nothing

/-- The key that a line of input stands for. -/
def keyOfLine (line : String) : String :=
  let key := dropEndWhile (fun c => c == '\r' || c == '\n') line.toList
  if key.isEmpty then "enter" else String.ofList key

/-- The failure of a script that failed. -/
def failedRun (m : Machine) : Failure := ⟨s!"'{m.displayName}' failed", none⟩

/-- The failure of a script that could not be started. -/
def failedStart (m : Machine) : Failure := ⟨s!"'{m.displayName}' failed to start", none⟩

/-- The failure of a script that waits for a key that never comes. -/
def noMoreKeys : Failure := ⟨"input closed while the script was waiting for a key", none⟩

/-- The line that tells where a script halted. -/
def haltLine (m : Machine) : Line := .error s!"script paused at line {naturalText (m.cursor + 1)}"

/-- The lines that tell of all that happened. -/
def Machine.lines (m : Machine) : List Line := m.events.toList.filterMap Event.line?

/-- Serve a machine until it asks for nothing more; `none` if `fuel` ticks and keys are not enough. -/
def play : (fuel : Nat) → (input : List String) → Machine → Option Outcome
  | 0, _, _ => none
  | fuel + 1, input, m =>
    match m.need with
    | .tick =>
      match Machine.tick m with
      | (.ok (), m') => play fuel input m'
      | (.error _, m') => some ⟨m'.lines, some (failedRun m')⟩
    | .key =>
      match input with
      | [] => some ⟨m.lines, some noMoreKeys⟩
      | line :: input => play fuel input (m.deliverKey (keyOfLine line))
    | .nothing => some ⟨m.lines, none⟩
    | .release => some ⟨m.lines ++ [haltLine m], none⟩
    | .repair => some ⟨m.lines, some (failedRun m)⟩

/-- Start a machine and serve it. -/
def playFromStart (fuel : Nat) (input : List String) (m : Machine) : Option Outcome := do
  match ← m.start fuel with
  | (.ok (), m) => play fuel input m
  | (.error _, m) => return ⟨m.lines, some (failedStart m)⟩

/-! ## Checking -/

/-- The line that tells of a fault in a file. -/
def faultLine (path : String) (line : Nat) (f : Fault) : Line :=
  let place := if line = 0 then path else s!"{path}:{naturalText line}"
  .error s!"{place}: {f.kind.name} error: {f.message}"

/-- Check a text. -/
def checkText (path text : String) : Outcome :=
  match Script.check [] text with
  | [] => ⟨[.output s!"{path}: ok"], none⟩
  | faults =>
    ⟨faults.map fun (line, f) => faultLine path line f,
      some ⟨s!"{naturalText faults.length} line(s) failed to tokenize", none⟩⟩

/-! ## Commands -/

/-- Carry out a command, `input` being the lines that can be read; `none` if `fuel` is not enough. -/
def Command.outcome (fuel : Nat) (files : Files) (input : List String) : Command → Option Outcome
  | .run file options =>
    match options.machine files file with
    | .ok m => playFromStart fuel input m
    | .error failure => some ⟨[], some failure⟩
  | .check file =>
    match readScript files file with
    | .ok text => some (checkText file text)
    | .error failure => some ⟨[], some failure⟩

/-- The lines of an input; the last one may lack its line break. -/
def inputLines (input : String) : List String :=
  let lines := pieces '\n' input.toList
  (if lines.getLast? = some [] then lines.dropLast else lines).map String.ofList

end LineScript
