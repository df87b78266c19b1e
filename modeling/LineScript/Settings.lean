/-
# Settings

The options of a machine.  All of them have defaults, so a host states only what it wants otherwise.
-/
import LineScript.Fault

namespace LineScript

/-- The options of a machine. -/
structure Settings where
  /-- The name in reports and console tags, unless the script gives one. -/
  displayName : String := "script"
  /-- The environment that scripts may ask for. -/
  environment : String := "terminal"
  verbose : Bool := false
  groupMessages : Bool := true
  tagMessages : Bool := false
  timestampMessages : Bool := false
  /-- Hand reports of faults to the host. -/
  reportErrors : Bool := true
  /-- Starting a script runs all of it. -/
  runToCompletion : Bool := false
  /-- How many statements a tick may run. -/
  budget : Nat := 1
  /-- The time between two ticks in milliseconds. -/
  tickInterval : Nat := 16
  allowExport : Bool := true
  allowImport : Bool := true
  /-- What is not allowed fails instead of warning. -/
  haltOnDisallowed : Bool := false
  deriving DecidableEq, Repr, Inhabited

/-- A machine must be able to run a statement in a tick. -/
def Settings.check (s : Settings) : Except Fault Unit :=
  if s.budget = 0 then .error .zeroSetting else .ok ()

end LineScript
