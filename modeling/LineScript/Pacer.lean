/-
# Pacing ticks

A machine reads no clock.  A host that has one asks a pacer whether enough time has passed for the next
tick.  Times are milliseconds after some fixed instant; time that runs backwards counts as standing still.
-/
import LineScript.Machine.Run

namespace LineScript

/-- When the next tick is due. -/
structure Pacer where
  /-- The time between two ticks. -/
  interval : Nat
  /-- The time of the last tick. -/
  last : Option Nat := none
  deriving DecidableEq, Repr, Inhabited

namespace Pacer

/-- Has the interval passed since the last tick? -/
def isDue (p : Pacer) (now : Nat) : Bool := p.last.all fun last => p.interval ≤ now - last

/-- The time until the next tick is due. -/
def remaining (p : Pacer) (now : Nat) : Nat :=
  match p.last with
  | none => 0
  | some last => p.interval - (now - last)

/-- Forget the last tick, so that one is due. -/
def reset (p : Pacer) : Pacer := { p with last := none }

/-- Tick something if it is due; the answer tells whether it was.  A tick that fails counts as one. -/
def pollWith {σ ε : Type} (tick : σ → Except ε Unit × σ) (p : Pacer) (now : Nat) (s : σ) :
    Except ε Bool × Pacer × σ :=
  if p.isDue now then
    let (result, s') := tick s
    (result.map fun _ => true, { p with last := some now }, s')
  else (.ok false, p, s)

/-- Tick a machine if it is due. -/
def poll (p : Pacer) (now : Nat) (m : Machine) : Except Fault Bool × Pacer × Machine :=
  p.pollWith Machine.tick now m

/-! ## Small laws -/

@[simp] theorem isDue_reset (p : Pacer) (now : Nat) : p.reset.isDue now = true := rfl

/-- Nothing remains exactly when a tick is due. -/
theorem remaining_eq_zero_iff (p : Pacer) (now : Nat) : p.remaining now = 0 ↔ p.isDue now = true := by
  unfold remaining isDue
  cases p.last with
  | none => simp
  | some last => simp; omega

end Pacer

end LineScript
