/-
# Calls of the host

What a host can ask of a machine, as data (`HostCall`), and the machines that hosts reach when they make only calls of
some kind, with extensions or without (`Machine.ReachedBy`).  A run may be looked at before it comes back, so its moves
are among the steps.

* `Reachable.perform`: calls lead from reachable machines to reachable ones;
* `ReachedBy.reachable`: machines of hosts without extensions are reachable.
-/
import LineScript.Proofs.Machine.Reachable
import LineScript.Proofs.Machine.References

namespace LineScript

/-- A call of the host.  `fuel` bounds the rounds of what may run for ever. -/
inductive HostCall
  | load (text name : String)
  | start (fuel : Nat)
  | startWith (fuel budget : Nat)
  | tick
  | run (fuel : Nat) (limit : Option Nat)
  | pause
  | resume
  | stop
  | execute (text : String)
  | deliverKey (key : String)
  | provide (name : String) (value : Value)
  | print (message : String)

/-- The answer of a call and the machine that it leads to; none when the fuel is not enough. -/
def HostCall.perform : HostCall → Machine → Option (Except Fault Unit × Machine)
  | load text name, m => some (Machine.load text name m)
  | start fuel, m => m.start fuel
  | startWith fuel budget, m => m.startWith fuel budget
  | tick, m => some (Machine.tick m)
  | run fuel limit, m => (m.run fuel limit).map fun (answer, k) => (answer.map fun _ => (), k)
  | pause, m => some (.ok (), m.pause)
  | resume, m => some (.ok (), m.resume)
  | stop, m => some (.ok (), m.stop)
  | execute text, m => some (Machine.execute text m)
  | deliverKey key, m => some (.ok (), m.deliverKey key)
  | provide name value, m => some (.ok (), m.provide name value)
  | print message, m => some (.ok (), m.print message)

/-- A call that provides no reference to an object. -/
def HostCall.harmless : HostCall → Bool
  | provide _ value => !value.refers
  | _ => true

namespace Machine

/-! ## Reachable and served machines -/

/-- **Calls of the host lead to reachable machines.** -/
theorem Reachable.perform {m k : Machine} {answer : Except Fault Unit} (h : m.Reachable) {c : HostCall}
    (hc : c.perform m = some (answer, k)) : k.Reachable := by
  cases c with
  | load text name =>
    obtain rfl : (Machine.load text name m).2 = k := congrArg Prod.snd (Option.some.inj hc)
    exact h.load text name
  | start fuel => exact h.start hc
  | startWith fuel budget => exact h.startWith hc
  | tick =>
    obtain rfl : (Machine.tick m).2 = k := congrArg Prod.snd (Option.some.inj hc)
    exact h.tick
  | run fuel limit =>
    obtain ⟨⟨count, k'⟩, hrun, hsame⟩ := Option.map_eq_some_iff.mp hc
    cases hsame
    exact h.run hrun
  | execute text =>
    obtain rfl : (Machine.execute text m).2 = k := congrArg Prod.snd (Option.some.inj hc)
    exact h.execute text
  | pause =>
    cases hc
    exact h.pause
  | resume =>
    cases hc
    exact h.resume
  | stop =>
    cases hc
    exact h.stop
  | deliverKey key =>
    cases hc
    exact h.deliverKey key
  | provide name value =>
    cases hc
    exact h.provide name value
  | print message =>
    cases hc
    exact h.print message

/-- The machines that are reached by a host that makes only calls of some kind, between two calls or in the middle of
a run.  A host with extensions registers them as well, with debug events or without. -/
inductive ReachedBy (allowed : HostCall → Bool) (extended : Bool) : Machine → Prop
  | new (s : Settings) (search : Search) : ReachedBy allowed extended (ofSettings s search)
  | call {m k : Machine} {answer : Except Fault Unit} (c : HostCall) : ReachedBy allowed extended m →
      allowed c = true → c.perform m = some (answer, k) → ReachedBy allowed extended k
  | register {m k : Machine} {answer : Except Fault Unit} (debug : Bool) (e : Extension) :
      ReachedBy allowed extended m → extended = true → m.register debug e = some (answer, k) →
      ReachedBy allowed extended k
  | clock {m : Machine} (now : TimeOfDay) : ReachedBy allowed extended m → ReachedBy allowed extended (m.atTime now)
  /-- A start with some budget, before the first move of the run. -/
  | launch {m : Machine} (n : Nat) : ReachedBy allowed extended m →
      ReachedBy allowed extended (Machine.launch (m.withBudget n)).2
  | move {m : Machine} {t : Stretch} : ReachedBy allowed extended m → m.advance = some t →
      ReachedBy allowed extended t.last

/-- The machine with one more extension, if it can be registered. -/
def withExtension (e : Extension) (m : Machine) : Machine := ((m.register false e).map Prod.snd).getD m

/-- The machines of hosts without extensions that provide no reference to an object. -/
abbrev Served : Machine → Prop := ReachedBy HostCall.harmless false

/-- The machines of all hosts, with extensions or without. -/
abbrev Visited : Machine → Prop := ReachedBy (fun _ => true) true

section ReachedBy

variable {allowed : HostCall → Bool} {extended : Bool} {m : Machine}

/-- Without extensions they are reachable. -/
theorem ReachedBy.reachable (h : m.ReachedBy allowed false) : m.Reachable := by
  induction h with
  | new s search => exact .new s search
  | call c _ _ hc ih => exact ih.perform hc
  | register debug e _ hno => cases hno
  | clock now _ ih => exact ih.clock now
  | launch n _ ih => exact (ih.withBudget n).launch
  | move _ hmove ih => exact ih.move hmove

theorem ReachedBy.stretch (h : m.ReachedBy allowed extended) (n : Nat) :
    (m.stretch n).last.ReachedBy allowed extended :=
  stretch_keeps ReachedBy.move h n

theorem ReachedBy.withExtension (h : m.ReachedBy allowed true) (e : Extension) :
    (m.withExtension e).ReachedBy allowed true := by
  unfold Machine.withExtension
  cases hregister : m.register false e with
  | none => exact h
  | some answered => exact h.register false e rfl hregister

/-- A script that is loaded and started on a new machine is reached by all hosts that may load it. -/
theorem ReachedBy.started (text : String) (hload : allowed (.load text "") = true) :
    (Machine.started text).ReachedBy allowed extended := by
  have hloaded : (HostCall.load text "").perform (ofSettings {} noPatterns) =
      some ((load text "" (ofSettings {} noPatterns)).1, (load text "" (ofSettings {} noPatterns)).2) := rfl
  exact (ReachedBy.call _ (.new {} _) hload hloaded).launch _

end ReachedBy

end Machine

end LineScript
