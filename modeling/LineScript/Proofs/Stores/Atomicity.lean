/-
# Operations that do all or nothing

No operation on names, classes or objects that fails has changed anything, although each one writes to its store in
place.  In a history the operations that fail could therefore as well be left out.

* `Symbols.allOrNothing_carryOut`, `Objects.allOrNothing_carryOut`: one operation;
* `InPlace.runAll_succeeding`: a history.

Main statement: each operation in place does what it does at once, or nothing (`operations_are_all_or_nothing`).
-/
import LineScript.Proofs.Symbols.InPlace
import LineScript.Proofs.Objects.InPlace
import LineScript.Proofs.Objects.Properties

namespace LineScript

namespace InPlace

variable {σ ρ κ : Type}

/-- Wherever the operation starts, a fault leaves the store as it was. -/
def AllOrNothing (a : InPlace σ ρ) : Prop := ∀ s f, (a s).1 = .error f → (a s).2 = s

/-- The store behind a history of operations, whether they succeed or fail. -/
def runAll (a : κ → InPlace σ ρ) : List κ → σ → σ
  | [], s => s
  | c :: cs, s => runAll a cs (a c s).2

/-- The operations of a history that succeed. -/
def succeeding (a : κ → InPlace σ ρ) : List κ → σ → List κ
  | [], _ => []
  | c :: cs, s =>
    match a c s with
    | (.ok _, s') => c :: succeeding a cs s'
    | (.error _, s') => succeeding a cs s'

/-- **Operations that fail could as well be left out.** -/
theorem runAll_succeeding {a : κ → InPlace σ ρ} (h : ∀ c, AllOrNothing (a c)) (cs : List κ) (s : σ) :
    runAll a (succeeding a cs s) s = runAll a cs s := by
  induction cs generalizing s with
  | nil => rfl
  | cons c cs ih =>
    rw [succeeding, runAll]
    rcases hc : a c s with ⟨f | reply, s'⟩
    · have hs : s' = s := by simpa [hc] using h c s f (by rw [hc])
      rw [hs]
      exact ih s
    · show runAll a (c :: succeeding a cs s') s = runAll a cs s'
      rw [runAll, hc]
      exact ih s'

end InPlace

namespace Symbols

/-- Behind a fault there is the old store. -/
theorem settle_of_error {s : Symbols} {f : Fault} {e : Except Fault (Reply × Symbols)}
    (h : (s.settle e).1 = .error f) : (s.settle e).2 = s := by
  cases e with
  | error fault => rfl
  | ok x => cases h

theorem allOrNothing_carryOut (c : Command) : InPlace.AllOrNothing c.carryOut := by
  intro s f hfault
  rw [c.carryOut_eq_perform] at hfault ⊢
  cases c with
  | declare | assign | declareFunction | call | finishCall | iterate => exact settle_of_error hfault
  | provide | finishDeclaration | resetPass | clear => cases hfault

end Symbols

namespace Objects

/-- Behind a fault there is the old store. -/
theorem settle_of_error {s : Objects} {f : Fault} {e : Except Fault (Reply × Objects)}
    (h : (s.settle e).1 = .error f) : (s.settle e).2 = s := by
  cases e with
  | error fault => rfl
  | ok x => cases h

theorem allOrNothing_carryOut (c : Command) : InPlace.AllOrNothing c.carryOut := by
  intro s f hfault
  rw [c.carryOut_eq_perform] at hfault ⊢
  cases c with
  | declareClass | addClassProperty | create | setProperty => exact settle_of_error hfault
  | resetPass | clear => cases hfault

end Objects

/-- **Operations are all or nothing.**  In every store, whatever operations led to it:

* an operation on names that is carried out write by write does what it does at once, and one that fails has changed
  nothing: no table, order, call, iteration or mark;
* while an iteration is running no other one starts, and the running one stays where it is;
* the first holds of the operations on classes and objects as well;
* a history of either kind leads where it leads without its operations that fail. -/
theorem operations_are_all_or_nothing :
    (∀ (s : Symbols) (c : Symbols.Command), c.carryOut s = s.perform c ∧
      ∀ f, (c.carryOut s).1 = .error f → (c.carryOut s).2 = s) ∧
    (∀ (s : Symbols) (it : Iteration), s.iteration = some it → ∀ name items line,
      (Symbols.Command.iterate name items line).carryOut s = (.error (.iterationRunning name it.function), s)) ∧
    (∀ (s : Objects) (c : Objects.Command), c.carryOut s = s.perform c ∧
      ∀ f, (c.carryOut s).1 = .error f → (c.carryOut s).2 = s) ∧
    (∀ (s : Symbols) (cs : List Symbols.Command),
      InPlace.runAll Symbols.Command.carryOut (InPlace.succeeding Symbols.Command.carryOut cs s) s =
        InPlace.runAll Symbols.Command.carryOut cs s) ∧
    ∀ (s : Objects) (cs : List Objects.Command),
      InPlace.runAll Objects.Command.carryOut (InPlace.succeeding Objects.Command.carryOut cs s) s =
        InPlace.runAll Objects.Command.carryOut cs s := by
  have hnames := Symbols.allOrNothing_carryOut
  have hobjects := Objects.allOrNothing_carryOut
  refine ⟨fun s c => ⟨c.carryOut_eq_perform s, hnames c s⟩, ?_,
    fun s c => ⟨c.carryOut_eq_perform s, hobjects c s⟩,
    fun s cs => InPlace.runAll_succeeding hnames cs s, fun s cs => InPlace.runAll_succeeding hobjects cs s⟩
  intro s it hrunning name items line
  rw [Symbols.Command.carryOut_eq_perform, Symbols.perform, Symbols.iterate, hrunning]
  rfl

/-- A second iteration in the first round of another one, and a property that its class does not know. -/
theorem operations_are_all_or_nothing_in_a_round :
    let s := ({} : Symbols).performAll [.declareFunction "f" [⟨"x", none⟩] 0, .finishDeclaration 2,
      .iterate "f" [.number 1, .number 2] 3]
    let t := ({} : Objects).performAll [.declareClass "P", .create (some "P")]
    s.Reachable ∧ s.iteration = some ⟨"f", [.number 1, .number 2], 0, 1⟩ ∧
      (Symbols.Command.iterate "f" [.number 3] 1).carryOut s = (.error (.iterationRunning "f" "f"), s) ∧
      (Objects.Command.setProperty 0 "y" (.number 1)).carryOut t = (.error (.classLacks "P" "y"), t) := by
  intro s t
  obtain ⟨-, hiterate, hobjects, -⟩ := operations_are_all_or_nothing
  have hrunning : s.iteration = some ⟨"f", [.number 1, .number 2], 0, 1⟩ := rfl
  have hfault : ((Objects.Command.setProperty 0 "y" (.number 1)).carryOut t).1 =
      .error (.classLacks "P" "y") := rfl
  refine ⟨Symbols.Reachable.empty.performAll _, hrunning, hiterate s _ hrunning "f" [.number 3] 1, ?_⟩
  exact Prod.ext hfault ((hobjects t _).2 _ hfault)

end LineScript
