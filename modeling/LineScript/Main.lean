/-
# The program

Carries out the command line with real files, a real clock and real input.  All decisions are made by the
library; this module waits, reads and prints.
-/
import Std.Time.Zoned
import LineScript.CommandLine.Commands
import LineScript.Pacer

namespace LineScript

namespace Main

/-! ## Files and lines -/

/-- Why a file could not be read. -/
def reasonOf (e : IO.Error) : String :=
  match e with
  | .noFileOrDirectory _ _ _ => "No such file or directory (os error 2)"
  | .permissionDenied _ _ _ => "Permission denied (os error 13)"
  | .inappropriateType (some _) _ _ => "Not a directory (os error 20)"
  | .inappropriateType none _ _ => "Is a directory (os error 21)"
  | e => toString e

/-- Read a file, or tell why it cannot be read. -/
def readFile (path : String) : IO (Except String String) := do
  try
    return .ok (← IO.FS.readFile path)
  catch e =>
    return .error (reasonOf e)

/-- The files that a command reads. -/
def filesOf : Command → List String
  | .run file options => options.config.toList ++ [file]
  | .check file => [file]

/-- Write a line. -/
def write : Line → IO Unit
  | .output text => do
    IO.println text
    (← IO.getStdout).flush
  | .error text => IO.eprintln text

/-- Write the lines that tell of what happened, and forget it. -/
def tell (m : Machine) : IO Machine := do
  m.lines.forM write
  return { m with events := #[] }

/-- Write what a command leaves and answer its exit code. -/
def finish (o : Outcome) : IO UInt32 := do
  o.lines.forM write
  (o.failure.map Failure.display).forM IO.eprintln
  return o.code.toUInt32

/-! ## Running -/

/-- A bound on the rounds of a run that no run reaches. -/
def manyRounds : Nat := Decimal.pow2 100

/-- How many statements run between two looks at what happened. -/
def burst : Nat := 1000

/-- Tell a machine the time of day. -/
def setClock (m : Machine) : IO Machine := do
  if m.console.timestamps then
    let t ← Std.Time.PlainTime.now
    let now : TimeOfDay := ⟨t.hour.val.toNat, t.minute.val.toNat, t.second.val.toNat⟩
    return { m with console := { m.console with now := now } }
  else return m

/-- Run a machine to its end, telling what happens on the way. -/
partial def runOn (m : Machine) : IO (Except Fault Unit × Machine) := do
  match (← setClock m).run manyRounds (some burst) with
  | none => return (.ok (), m)
  | some (.error f, m) => return (.error f, ← tell m)
  | some (.ok count, m) =>
    let m ← tell m
    if count < burst then return (.ok (), m) else runOn m

/-- Start a machine. -/
def start (m : Machine) : IO (Except Fault Unit × Machine) := do
  match Machine.launch m with
  | (.error f, m) => return (.error f, ← tell m)
  | (.ok (), m) => if m.settings.runToCompletion then runOn m else return (.ok (), m)

/-- Serve a machine until it asks for nothing more. -/
partial def serve (input : IO.FS.Stream) (p : Pacer) (m : Machine) : IO Outcome := do
  match m.need with
  | .tick =>
    let now ← IO.monoMsNow
    if p.isDue now then
      let (result, p, m) := p.poll now (← setClock m)
      let m ← tell m
      match result with
      | .ok _ => serve input p m
      | .error _ => return ⟨[], some (failedRun m)⟩
    else
      IO.sleep (p.remaining now).toUInt32
      serve input p m
  | .key =>
    let line ← input.getLine
    if line.isEmpty then return ⟨[], some noMoreKeys⟩
    else serve input p (m.deliverKey (keyOfLine line))
  | .nothing => return {}
  | .release => return ⟨[haltLine m], none⟩
  | .repair => return ⟨[], some (failedRun m)⟩

/-- Start a machine and serve it. -/
def runMachine (m : Machine) : IO Outcome := do
  match ← start m with
  | (.ok (), m) => serve (← IO.getStdin) { interval := m.settings.tickInterval } m
  | (.error _, m) => return ⟨[], some (failedStart m)⟩

/-- Carry out a command. -/
def carryOut (c : Command) : IO Outcome := do
  let table ← (filesOf c).mapM fun path => return (path, ← readFile path)
  let files (path : String) : Except String String := (table.lookup path).getD (.error "not read")
  match c with
  | .run file options =>
    match options.machine files file with
    | .ok m => runMachine m
    | .error failure => return ⟨[], some failure⟩
  | .check file =>
    match readScript files file with
    | .ok text => return checkText file text
    | .error failure => return ⟨[], some failure⟩

/-- What is shown when a command line is not understood. -/
def usage : String :=
  "usage: run FILE [--config FILE] [--ipt N] [--interval MS] [--verbose]\n       check FILE"

end Main

end LineScript

/-- Carry out the command line. -/
def main (args : List String) : IO UInt32 := do
  match LineScript.Command.ofArguments? args with
  | some command => LineScript.Main.finish (← LineScript.Main.carryOut command)
  | none =>
    IO.eprintln LineScript.Main.usage
    return LineScript.Outcome.usageCode.toUInt32
