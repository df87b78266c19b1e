/-
# Nested code

Conditions and what belongs to them go on with code in their own arguments; no other keyword does
(`closed_runBuiltin`).  What goes on so has changed nothing but contexts, and it skips no more arguments than it
was given (`runBuiltin_nested`, `dispatch_nested`).
-/
import LineScript.Proofs.Machine.Calls

namespace LineScript

open Act

/-- Can a keyword go on with nested code? -/
def Builtin.opensCode : Builtin → Bool
  | .condition | .otherwise | .continuation => true
  | _ => false

/-- Can a keyword go on with another line than the next one, or have the next ones skipped? -/
def Builtin.transfersControl : Builtin → Bool
  | .jump | .execute | .iterate | .function | .finish | .restart | .stop => true
  | _ => false

namespace Act

variable {α β : Type}

/-- A step that answers only what satisfies `P`. -/
def Answers (P : β → Prop) (a : Act β) : Prop := ∀ m, Ends a m (fun x _ => P x) (fun _ _ => True)

variable {P : β → Prop}

theorem answers_pure {x : β} (h : P x) : Answers P (pure x) := fun _ => ends_pure h

theorem answers_throw (f : Fault) : Answers P (throw f) := fun _ => ends_throw trivial

theorem answers_get {k : Machine → Act β} (h : ∀ m, Answers P (k m)) : Answers P (get >>= k) :=
  fun m => ends_get (h m m)

/-- A sequence answers what its last part does. -/
theorem answers_bind {a : Act α} {k : α → Act β} (hk : ∀ x, Answers P (k x)) : Answers P (a >>= k) :=
  fun _ => ends_bind (ends_of_ok fun _ _ _ => trivial) fun x m _ => hk x m

end Act

namespace Machine

/-! ## Keywords that open no code -/

/-- A keyword that does not go on with nested code. -/
def Closed (next : Next) : Prop := ∀ skip, next ≠ .nested skip

theorem closed_following : Closed .following := fun _ => Next.noConfusion

theorem closed_line (n : Nat) : Closed (.line n) := fun _ => Next.noConfusion

/-- What a keyword without nested code answers: the next line, or another one if it can transfer control. -/
theorem answers_runBuiltin {P : Next → Prop} {b : Builtin} (hb : b.opensCode = false) (hfollowing : P .following)
    (hline : b.transfersControl = true → ∀ n, P (.line n)) (i : Invocation) (depth : Nat) :
    Answers P (runBuiltin b i depth) := by
  have hdone : Answers P (pure .following : Act Next) := answers_pure hfollowing
  cases b with
  | declare => exact answers_bind fun _ => answers_bind fun _ => hdone
  | assign =>
    refine answers_bind fun name => answers_bind fun value => ?_
    dsimp only
    split
    · exact answers_bind fun _ => hdone
    · refine answers_bind fun target => ?_
      split
      · exact answers_bind fun _ => hdone
      · exact answers_bind fun _ => hdone
  | arithmetic op =>
    refine answers_bind fun name => ?_
    split
    · refine answers_bind fun held => ?_
      split
      · exact answers_bind fun _ => answers_bind fun _ => hdone
      · exact answers_throw _
    · exact answers_throw _
  | join => exact answers_bind fun _ => answers_get fun _ => answers_bind fun _ => answers_bind fun _ => hdone
  | log => exact answers_bind fun _ => hdone
  | function =>
    refine answers_bind fun _ => answers_bind fun _ => answers_get fun _ => answers_bind fun reply => ?_
    split
    · exact hdone
    · exact answers_pure (hline rfl _)
  | execute => exact answers_bind fun _ => answers_get fun _ => answers_bind fun _ => answers_pure (hline rfl _)
  | finish =>
    refine answers_bind fun _ => answers_bind fun reply => ?_
    split
    · exact answers_pure (hline rfl _)
    · exact hdone
  | jump => exact answers_get fun _ => answers_bind fun _ => answers_pure (hline rfl _)
  | iterate =>
    unfold runBuiltin runIterate
    dsimp only
    split
    · refine answers_bind fun _ => answers_get fun _ => answers_bind fun reply => ?_
      split
      · exact answers_pure (hline rfl _)
      · exact hdone
    · exact answers_throw _
  | newClass => exact answers_bind fun _ => answers_bind fun _ => answers_bind fun _ => hdone
  | newObject =>
    refine answers_bind fun _ => answers_bind fun _ => answers_get fun _ => ?_
    dsimp only
    split <;> exact answers_bind fun _ => answers_bind fun _ => answers_bind fun _ => hdone
  | property =>
    refine answers_bind fun c => answers_get fun m => ?_
    split
    · exact answers_bind fun _ => answers_bind fun _ => answers_bind fun _ => hdone
    · exact answers_throw _
  | pause => exact answers_get fun _ => answers_bind fun _ => answers_bind fun _ => hdone
  | awaitKey => exact answers_bind fun _ => hdone
  | stop => exact answers_bind fun _ => answers_pure (hline rfl 0)
  | restart => exact answers_bind fun _ => answers_pure (hline rfl 0)
  | exportName =>
    refine answers_bind fun _ => answers_get fun m => ?_
    dsimp only
    split <;> exact answers_bind fun _ => hdone
  | importName =>
    refine answers_bind fun _ => answers_get fun m => ?_
    dsimp only
    split <;> exact answers_bind fun _ => hdone
  | condition | otherwise | continuation => cases hb

/-- **Only conditions and what belongs to them go on with nested code.** -/
theorem closed_runBuiltin {b : Builtin} (hb : b.opensCode = false) (i : Invocation) (depth : Nat) :
    Answers Closed (runBuiltin b i depth) :=
  answers_runBuiltin hb closed_following (fun _ => closed_line) i depth

/-! ## Keywords that open code -/

/-- A condition that holds has its three arguments. -/
theorem length_of_holds {search : Search} {i : Invocation} {satisfied : Bool} (h : holds search i = .ok satisfied) :
    3 ≤ i.args.length := by
  unfold holds at h
  split at h
  · rename_i right _ _ hright
    obtain ⟨t, ht, -⟩ := Option.map_eq_some_iff.mp hright
    exact (List.getElem?_eq_some_iff.mp ht).1
  · cases h

theorem runCondition_nested {i : Invocation} {depth : Nat} {m k : Machine} {skip : Nat}
    (h : runCondition i depth m = (.ok (.nested skip), k)) :
    skip ≤ i.args.length ∧ ∃ cs, cs.length = m.contexts.length ∧ k = m.withContexts cs := by
  obtain ⟨satisfied, hholds, rfl, hstep⟩ := runCondition_eq_ok h
  refine ⟨?_, _, List.length_modify .., rfl⟩
  cases satisfied with
  | true =>
    cases hstep
    exact length_of_holds hholds
  | false => cases hstep

/-- **What goes on with nested code** skips arguments that are there, and has changed only contexts. -/
theorem runBuiltin_nested {b : Builtin} {i : Invocation} {depth : Nat} {m k : Machine} {skip : Nat}
    (h : runBuiltin b i depth m = (.ok (.nested skip), k)) :
    skip ≤ i.args.length ∧ ∃ cs, cs.length = m.contexts.length ∧ k = m.withContexts cs := by
  have hsame : ∃ cs, cs.length = m.contexts.length ∧ m = m.withContexts cs := ⟨m.contexts, rfl, rfl⟩
  cases hb : b.opensCode with
  | false => exact absurd rfl ((closed_runBuiltin hb i depth m).of_ok h skip)
  | true =>
    cases b with
    | condition => exact runCondition_nested h
    | otherwise =>
      obtain ⟨c, _, hcontext, -⟩ := bind_eq_ok (show runOtherwise depth m = _ from h)
      change runOtherwise depth m = _ at h
      rw [runOtherwise_apply (context_eq_ok hcontext).1] at h
      split_ifs at h <;> cases h
      exact ⟨Nat.zero_le _, hsame⟩
    | continuation =>
      obtain ⟨c, _, hcontext, -⟩ := bind_eq_ok (show runContinuation i depth m = _ from h)
      obtain ⟨hc, -⟩ := context_eq_ok hcontext
      change runContinuation i depth m = _ at h
      by_cases hif : c.lastKeyword = some "if"
      · rcases runContinuation_if hc hif h with ⟨-, -, hstep⟩ | ⟨-, hrun⟩
        · cases hstep
        · exact runCondition_nested hrun
      · rw [runContinuation_apply hc, if_neg hif] at h
        split_ifs at h
        · cases h
        · cases h
          exact ⟨Nat.zero_le _, hsame⟩
        · obtain ⟨_, _, -, hlast⟩ := bind_eq_ok h
          cases hlast
        · cases h
    | _ => cases hb

/-- A keyword that goes on with nested code is a built-in one. -/
theorem runKeyword_nested {inv : Invoke} {i : Invocation} {depth : Nat} {m k : Machine} {skip : Nat}
    (h : runKeyword inv i depth m = (.ok (.nested skip), k)) :
    skip ≤ i.args.length ∧ ∃ cs, cs.length = m.contexts.length ∧ k = m.withContexts cs := by
  unfold runKeyword at h
  cases hold : replacements.lookup i.keyword with
  | some instead =>
    rw [hold] at h
    obtain ⟨_, _, -, hlast⟩ := bind_eq_ok h
    cases hlast
  | none =>
    rw [hold] at h
    dsimp only at h
    rw [get_bind_apply] at h
    cases howned : m.registry.keywords.find? i.keyword with
    | some owned =>
      rw [howned] at h
      obtain ⟨_, _, -, hrest⟩ := bind_eq_ok h
      obtain ⟨_, _, -, hrest⟩ := bind_eq_ok hrest
      obtain ⟨_, _, -, hlast⟩ := bind_eq_ok hrest
      cases hlast
    | none =>
      cases hb : Builtin.ofName? i.keyword with
      | none =>
        rw [howned, hb] at h
        cases h
      | some b =>
        rw [howned, hb] at h
        obtain ⟨_, _, hvalid, hrun⟩ := bind_eq_ok h
        obtain ⟨-, rfl⟩ := ofExcept_eq_ok hvalid
        exact runBuiltin_nested hrun

/-- **A statement that goes on with nested code** skips arguments that are there, and has changed only contexts. -/
theorem dispatch_nested {inv : Invoke} {s : Statement} {depth : Nat} {m k : Machine} {skip : Nat}
    (h : dispatch inv s depth m = (.ok (.nested skip), k)) :
    skip ≤ s.args.length ∧ ∃ cs, cs.length = m.contexts.length ∧ k = m.withContexts cs := by
  obtain ⟨k', hrun, rfl⟩ := dispatch_eq_ok h
  obtain ⟨hskip, cs, hcs, rfl⟩ := runKeyword_nested hrun
  refine ⟨hskip, ?_⟩
  unfold leaveContext
  split_ifs
  · exact ⟨cs, hcs, rfl⟩
  · exact ⟨_, (List.length_modify ..).trans hcs, rfl⟩

/-- In a plain machine only the keywords that open code go on with nested code. -/
theorem Plain.dispatch_opens {m k : Machine} (hm : m.Plain) {inv : Invoke} {s : Statement} {depth skip : Nat}
    (h : Machine.dispatch inv s depth m = (.ok (.nested skip), k)) :
    ∃ b, Builtin.ofName? s.keyword.text = some b ∧ b.opensCode = true := by
  obtain ⟨k', hrun, -⟩ := dispatch_eq_ok h
  rcases hm.runKeyword_eq_ok hrun with ⟨_, _, -, hstep, -⟩ | ⟨-, b, hb, -, hbuiltin⟩
  · cases hstep
  · refine ⟨b, hb, ?_⟩
    cases hopens : b.opensCode with
    | true => rfl
    | false => exact absurd rfl ((closed_runBuiltin hopens _ _ m).of_ok hbuiltin skip)

end Machine

end LineScript
