/-
# What all hosts keep

A property of machines that lines keep, and all that the calls of a host do around them, is kept by every call
(`CallInvariant.call`) and by every move of a run (`CallInvariant.move`).  If registrations and the passing of time keep
it as well, then what holds of new machines holds of all that a host can reach (`HostInvariant.reachedBy`).
-/
import LineScript.Proofs.Machine.Hosting
import LineScript.Proofs.Machine.Requests

namespace LineScript

open Act

namespace Machine

/-! ## Calls and moves -/

/-- A property that lines keep, and all that the calls of a host do around them. -/
structure CallInvariant (P : Machine → Prop) : Prop where
  congruence : Congruence fun m m' => m' = m ∧ P m
  line (bound : Nat) (line : String) :
    Agree (fun m m' => m' = m ∧ P m) (runLine (invoke bound) line) (runLine (invoke bound) line)
  load {m : Machine} (text name : String) : P m → P (Machine.load text name m).2
  hardReset {m : Machine} : P m → P m.hardReset
  budget {m : Machine} (n : Nat) : P m → P (m.withBudget n)
  lastKey {m : Machine} (key : String) : P m → P { m with lastKey := some key }

section CallInvariant

variable {P : Machine → Prop} (hP : CallInvariant P) {m k : Machine}
include hP

/-- Writes keep it. -/
theorem CallInvariant.write (w : Write) (hm : P m) : P (m.write w) := (hP.congruence.write w ⟨rfl, hm⟩).2

theorem CallInvariant.toRun : RunCongruence fun m m' => m' = m ∧ P m :=
  hP.congruence.toRun fun h => congrArg Machine.budget h.1

theorem CallInvariant.cursorLine (bound : Nat) : Agree (fun m m' => m' = m ∧ P m)
    (guarded (runCursorLine (invoke bound))) (guarded (runCursorLine (invoke bound))) :=
  hP.congruence.agree_guarded (hP.congruence.agree_runCursorLine (hP.line bound))

theorem CallInvariant.fail (f : Fault) (hm : P m) : P (m.fail f) := (hP.congruence.fail f ⟨rfl, hm⟩).2

theorem CallInvariant.execute (text : String) (hm : P m) : P (Machine.execute text m).2 := by
  have hagree : Agree (fun m m' => m' = m ∧ P m) (Machine.execute text) (Machine.execute text) := by
    refine agree_get fun m m' h => ?_
    rw [hP.toRun.nesting h]
    exact hP.congruence.agree_executeWith (hP.line m.nesting) text
  exact (hagree m m ⟨rfl, hm⟩).2.2

theorem CallInvariant.resume (hm : P m) : P m.resume := by
  unfold Machine.resume
  split
  · exact hP.write (.savedWait none) (hP.write (.mode ((m.savedWait.map Mode.waiting).getD .running)) hm)
  · exact hm

theorem CallInvariant.launch (hm : P m) : P (Machine.launch m).2 := by
  unfold Machine.launch
  split
  · exact hP.fail _ (hP.write (.executing none) hm)
  · exact hP.write (.mode .running) (hP.write (.lastReport none) (hP.hardReset hm))

theorem CallInvariant.run {fuel : Nat} {limit : Option Nat} {answer : Except Fault Nat} (hm : P m)
    (h : m.run fuel limit = some (answer, k)) : P k := by
  have hsame : m = m ∧ P m := ⟨rfl, hm⟩
  rcases hP.toRun.runFrom hP.cursorLine limit fuel hsame with
    ⟨hnone, -⟩ | ⟨answer', l, l', hl, -, -, hkept⟩
  · rw [Machine.run, hnone] at h
    cases h
  · rw [Machine.run, hl] at h
    cases h
    exact hkept

theorem CallInvariant.start {fuel : Nat} {answer : Except Fault Unit} (hm : P m)
    (h : m.start fuel = some (answer, k)) : P k := by
  have hlaunch := hP.launch hm
  rcases start_cases h with ⟨-, -, rfl⟩ | ⟨-, hl | ⟨s, result, hl, hrun, -⟩⟩
  · exact hP.resume hm
  · rw [hl] at hlaunch
    exact hlaunch
  · rw [hl] at hlaunch
    exact hP.run hlaunch hrun

/-- **All calls of a host keep it.** -/
theorem CallInvariant.call {c : HostCall} {answer : Except Fault Unit} (hm : P m)
    (h : c.perform m = some (answer, k)) : P k := by
  cases c with
  | load text name =>
    obtain rfl : (Machine.load text name m).2 = k := congrArg Prod.snd (Option.some.inj h)
    exact hP.load text name hm
  | start fuel => exact hP.start hm h
  | startWith fuel budget =>
    change m.startWith fuel budget = _ at h
    unfold Machine.startWith at h
    split_ifs at h
    · cases h
      exact hP.fail _ hm
    · exact hP.start (hP.budget budget hm) h
  | tick =>
    obtain rfl : (Machine.tick m).2 = k := congrArg Prod.snd (Option.some.inj h)
    exact (hP.toRun.agree_tick hP.cursorLine m m ⟨rfl, hm⟩).2.2
  | run fuel limit =>
    obtain ⟨⟨result, k'⟩, hrun, hsame⟩ := Option.map_eq_some_iff.mp h
    cases hsame
    exact hP.run hm hrun
  | pause =>
    cases h
    exact (hP.congruence.pause ⟨rfl, hm⟩).2
  | resume =>
    cases h
    exact hP.resume hm
  | stop =>
    cases h
    exact hP.write (.mode .idle) (hP.hardReset hm)
  | execute text =>
    obtain rfl : (Machine.execute text m).2 = k := congrArg Prod.snd (Option.some.inj h)
    exact hP.execute text hm
  | deliverKey key =>
    cases h
    have hkey : P ({ m with lastKey := some key }.provide lastKeyName (.string key)) :=
      (hP.congruence.provide lastKeyName (.string key) ⟨rfl, hP.lastKey key hm⟩).2
    unfold Machine.deliverKey
    dsimp only
    split
    · exact hP.write (.mode .running) hkey
    · exact hkey
  | provide name value =>
    cases h
    exact (hP.congruence.provide name value ⟨rfl, hm⟩).2
  | print message =>
    cases h
    exact (hP.congruence.print message ⟨rfl, hm⟩).2

/-- Moves of a run keep it. -/
theorem CallInvariant.move {t : Stretch} (hm : P m)
    (h : m.advance = some t) : P t.last := by
  unfold advance at h
  split at h
  · rename_i left hmode
    cases h
    exact (hP.toRun.wait left ⟨rfl, hm⟩).2
  · split at h
    · cases h
      exact hP.write (.mode .finished) hm
    · split_ifs at h
      · cases h
        exact (hP.cursorLine m.nesting m m ⟨rfl, hm⟩).2.2
      · cases h
        exact (hP.congruence.pass _ ⟨rfl, hm⟩).2
  · cases h

end CallInvariant

/-! ## Registrations and time -/

/-- A property that is kept by registrations and at all times as well. -/
structure HostInvariant (P : Machine → Prop) : Prop extends CallInvariant P where
  registry {m : Machine} (r : Registry) : P m → P { m with registry := r }
  clock {m : Machine} (now : TimeOfDay) : P m → P (m.atTime now)

section HostInvariant

variable {P : Machine → Prop} (hP : HostInvariant P) {m : Machine}
include hP

theorem HostInvariant.register {k : Machine} {debug : Bool} {e : Extension} {answer : Except Fault Unit} (hm : P m)
    (h : m.register debug e = some (answer, k)) : P k := by
  obtain ⟨outcome, -, hk⟩ := Option.map_eq_some_iff.mp h
  cases outcome with
  | error f =>
    cases hk
    exact hm
  | ok r =>
    cases hk
    exact hP.registry r (hP.write (.symbols (e.globals.foldl (fun s g => s.provide g.1 g.2) m.symbols)) hm)

/-- **What holds of new machines, and is kept on all hosts, holds on each of them**, also in the middle of runs. -/
theorem HostInvariant.reachedBy (hnew : ∀ (s : Settings) (search : Search), P (ofSettings s search))
    {allowed : HostCall → Bool} {extended : Bool} (h : m.ReachedBy allowed extended) : P m := by
  induction h with
  | new s search => exact hnew s search
  | call c _ _ hc ih => exact hP.call ih hc
  | register debug e _ _ hregister ih => exact hP.register ih hregister
  | clock now _ ih => exact hP.clock now ih
  | launch n _ ih => exact hP.launch (hP.budget n ih)
  | move _ hmove ih => exact hP.move ih hmove

/-- What holds of new machines, and is kept on all hosts, holds without extensions. -/
theorem HostInvariant.reachable (hnew : ∀ (s : Settings) (search : Search), P (ofSettings s search))
    (h : m.Reachable) : P m := by
  induction h with
  | new s search => exact hnew s search
  | load text name _ ih => exact hP.load text name ih
  | withBudget n _ ih => exact hP.budget n ih
  | launch _ ih => exact hP.launch ih
  | move _ hmove ih => exact hP.move ih hmove
  | execute text _ ih => exact hP.execute text ih
  | refuse _ ih => exact hP.fail _ ih
  | pause _ ih => exact hP.call (c := .pause) ih rfl
  | resume _ ih => exact hP.resume ih
  | stop _ ih => exact hP.call (c := .stop) ih rfl
  | deliverKey key _ ih => exact hP.call (c := .deliverKey key) ih rfl
  | provide name value _ ih => exact hP.call (c := .provide name value) ih rfl
  | print message _ ih => exact hP.call (c := .print message) ih rfl
  | clock now _ ih => exact hP.clock now ih

end HostInvariant

end Machine

end LineScript
