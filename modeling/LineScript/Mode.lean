/-
# Where a run is

A run idles, goes on, halts, waits, is finished or has failed.
-/
import LineScript.Decimal.Shortest

namespace LineScript

open LineScript.Decimal

/-- What a script waits for. -/
inductive Wait
  | ticks (left : Nat)
  /-- A key of some name, or any key. -/
  | key (name : Option String)
  deriving DecidableEq, Repr, Inhabited

/-- The stages in the life of a run. -/
inductive Mode
  | idle
  | running
  | paused
  | waiting (w : Wait)
  | finished
  /-- Over after a fault; the state is kept for inspection. -/
  | failed
  deriving DecidableEq, Repr, Inhabited

/-- A mode as it is shown. -/
def Mode.display : Mode → String
  | idle => "idle"
  | running => "running"
  | paused => "paused"
  | waiting (.ticks n) => s!"waiting ({naturalText n} ticks)"
  | waiting (.key (some name)) => s!"waiting for '{name}'"
  | waiting (.key none) => "waiting for a key"
  | finished => "finished"
  | failed => "failed"

end LineScript
