/-
# What the operations of the store do

For each operation that may fail, what its success says about the store before and about the store after.  The
later modules use these and do not open the operations again.

* `declare_entry`, `assign_entry`: a declaration or an assignment enters one variable, which keeps its tag;
* `call_eq_ok`, `iterate_eq_ok`: a call pushes one frame, whose arguments its function accepts;
* `finishCall_eq_ok`: an `end` is ignored, returns from an ordinary call, starts the next round of the iteration,
  or ends the iteration.
-/
import LineScript.Symbols
import Mathlib.Data.List.Forall2
import Mathlib.Tactic.SplitIfs

namespace LineScript

/-- A frame binds the first parameters of a function in order, each to a value that it accepts. -/
def Function.Admits (f : Function) (frame : Frame) : Prop :=
  List.Forall₂ (fun binding p => binding.1 = p.name ∧ p.accepts binding.2 = true)
    frame.bindings (f.params.take frame.bindings.length)

namespace Symbols

variable {s s' : Symbols} {name : String} {line : Nat}

/-- Of two operations that succeed one after the other, both succeed. -/
theorem bind_eq_ok {α β : Type} {e : Except Fault α} {k : α → Except Fault β} {y : β}
    (h : (e >>= k) = .ok y) : ∃ x, e = .ok x ∧ k x = .ok y := by
  cases e with
  | error f => cases h
  | ok x => exact ⟨x, rfl, h⟩

/-- Of two operations of which one fails, the first fails, or the second does behind it. -/
theorem bind_eq_error {α β : Type} {e : Except Fault α} {k : α → Except Fault β} {f : Fault}
    (h : (e >>= k) = .error f) : e = .error f ∨ ∃ x, e = .ok x ∧ k x = .error f := by
  cases e with
  | error f' =>
    cases h
    exact Or.inl rfl
  | ok x => exact Or.inr ⟨x, rfl, h⟩

/-- A fault leaves no trace, so only the successes of an operation have to be looked at. -/
theorem settle_keeps {α : Type} {P : Symbols → Prop} (h : P s) {e : Except Fault α}
    (k : α → Reply × Symbols) (hok : ∀ x, e = .ok x → P (k x).2) : P (s.settle (e.map k)).2 := by
  cases e with
  | error fault => exact h
  | ok x => exact hok x rfl

/-! ## Variables -/

/-- A value replaces only values of its own tag. -/
theorem checkTag_eq_ok {held : Option Value} {given : Value} (h : checkTag name held given = .ok ()) :
    ∀ v, held = some v → v.tag = given.tag := by
  rintro v rfl
  unfold checkTag at h
  dsimp only at h
  split_ifs at h with htag
  exact htag

/-- A value does not replace one of another tag. -/
theorem checkTag_eq_error {held : Option Value} {given : Value} {f : Fault}
    (h : checkTag name held given = .error f) :
    ∃ v, held = some v ∧ v.tag ≠ given.tag ∧ f = .variableType name v.tag given.tag := by
  unfold checkTag at h
  split at h
  · rename_i v
    split_ifs at h with htag
    exact ⟨v, rfl, htag, (Except.error.inj h).symm⟩
  · cases h

/-- **What a declaration enters**: a new variable, or one of an earlier pass, which keeps its value when it has
one; the given value must then have the same tag. -/
theorem declare_entry {initial : Option Value} {isGlobal : Bool}
    (h : s.declare name initial isGlobal = .ok s') :
    ∃ v, s' = s.withTable isGlobal ((s.table isGlobal).enter name v) ∧
      (((s.table isGlobal).find? name = none ∧ v = { value := initial.map Value.normalized }) ∨
        ∃ var, (s.table isGlobal).find? name = some var ∧ var.declared = false ∧
          (∀ held given, var.value = some held → initial = some given →
            held.tag = given.normalized.tag) ∧
          v = { var with value := var.value <|> initial.map Value.normalized, declared := true }) := by
  unfold declare at h
  dsimp only at h
  split at h
  · rename_i hnone
    cases h
    exact ⟨_, rfl, Or.inl ⟨hnone, rfl⟩⟩
  · rename_i var hfound
    split_ifs at h with hdeclared
    have hpending : var.declared = false := by simpa using hdeclared
    cases initial with
    | none =>
      cases h
      exact ⟨_, rfl, Or.inr ⟨var, hfound, hpending, by rintro held given - ⟨⟩, rfl⟩⟩
    | some given =>
      obtain ⟨_, hchecked, hlast⟩ := bind_eq_ok h
      cases hlast
      refine ⟨_, rfl, Or.inr ⟨var, hfound, hpending, ?_, rfl⟩⟩
      rintro held given' hheld ⟨⟩
      exact checkTag_eq_ok hchecked held hheld

/-- A declaration enters one variable. -/
theorem declare_eq_ok {initial : Option Value} {isGlobal : Bool}
    (h : s.declare name initial isGlobal = .ok s') :
    ∃ v, s' = s.withTable isGlobal ((s.table isGlobal).enter name v) := by
  obtain ⟨v, hs, -⟩ := declare_entry h
  exact ⟨v, hs⟩

/-- **What an assignment enters**: the stored form of the value, in a variable that can be assigned and that holds
no value of another tag. -/
theorem assign_entry {value : Value} {isGlobal : Bool} (h : s.assign name value isGlobal = .ok s') :
    ∃ var, (s.table isGlobal).find? name = some var ∧ var.isOpen = true ∧
      (∀ held, var.value = some held → held.tag = value.normalized.tag) ∧
      s' = s.withTable isGlobal
        ((s.table isGlobal).enter name { var with value := some value.normalized }) := by
  unfold assign at h
  dsimp only at h
  split at h
  · cases h
  · split at h
    · cases h
    · rename_i var hfound
      split_ifs at h with hopen
      obtain ⟨_, hchecked, hlast⟩ := bind_eq_ok h
      cases hlast
      exact ⟨var, hfound, hopen, checkTag_eq_ok hchecked, rfl⟩

/-- An assignment enters one variable. -/
theorem assign_eq_ok {value : Value} {isGlobal : Bool} (h : s.assign name value isGlobal = .ok s') :
    ∃ v, s' = s.withTable isGlobal ((s.table isGlobal).enter name v) := by
  obtain ⟨var, -, -, -, hs⟩ := assign_entry h
  exact ⟨_, hs⟩

/-- A declaration fails for a variable that is declared, or when the given value has another tag than the one that
the variable kept. -/
theorem declare_eq_error {initial : Option Value} {isGlobal : Bool} {f : Fault}
    (h : s.declare name initial isGlobal = .error f) :
    f = .variableDeclared name ∨ ∃ held given, initial = some given ∧ held ≠ given.normalized.tag ∧
      f = .variableType name held given.normalized.tag := by
  unfold declare at h
  dsimp only at h
  split at h
  · cases h
  · split_ifs at h with hdeclared
    · exact Or.inl (Except.error.inj h).symm
    · cases initial with
      | none => cases h
      | some given =>
        rcases bind_eq_error h with hchecked | ⟨_, -, hlast⟩
        · obtain ⟨held, -, htag, rfl⟩ := checkTag_eq_error hchecked
          exact Or.inr ⟨held.tag, given, rfl, htag, rfl⟩
        · cases hlast

/-- **An assignment that fails behind the declaration of its variable** meets a value that an earlier pass has left,
of another tag; the declaration has only marked the variable as declared. -/
theorem assign_error_of_declare {value : Value} {isGlobal : Bool} {f : Fault}
    (hdeclare : s.declare name none isGlobal = .ok s')
    (hassign : s'.assign name value isGlobal = .error f) :
    ∃ var held, (s.table isGlobal).find? name = some var ∧ var.declared = false ∧
      var.value = some held ∧ held.tag ≠ value.normalized.tag ∧
      f = .variableType name held.tag value.normalized.tag ∧
      s' = s.withTable isGlobal ((s.table isGlobal).enter name { var with declared := true }) := by
  obtain ⟨v, rfl, hentry⟩ := declare_entry hdeclare
  have hopen : v.isOpen = true := by
    rcases hentry with ⟨-, rfl⟩ | ⟨var, -, -, -, rfl⟩ <;> rfl
  -- The variable is there, so no parameter hides it and only the tag can be wrong.
  have hfound : ((s.withTable isGlobal ((s.table isGlobal).enter name v)).table isGlobal).find? name =
      some v := by
    cases isGlobal <;> exact Catalog.find?_enter_self _ _ _
  have hvisible : (if isGlobal then none
      else (s.withTable isGlobal ((s.table isGlobal).enter name v)).shadowing? name) = none := by
    cases isGlobal with
    | true => rfl
    | false =>
      have hhas : (s.withTable false ((s.table false).enter name v)).locals.has name = true := by
        rw [Catalog.has]
        exact Option.isSome_iff_exists.mpr ⟨v, hfound⟩
      exact if_pos hhas
  unfold assign at hassign
  dsimp only at hassign
  rw [hvisible] at hassign
  dsimp only at hassign
  rw [hfound] at hassign
  dsimp only at hassign
  rw [if_pos hopen] at hassign
  rcases bind_eq_error hassign with hchecked | ⟨_, -, hlast⟩
  · obtain ⟨held, hheld, htag, rfl⟩ := checkTag_eq_error hchecked
    rcases hentry with ⟨-, rfl⟩ | ⟨var, hbefore, hpending, -, rfl⟩
    · cases hheld
    · have hkept : var.value = some held := by simpa using hheld
      refine ⟨var, held, hbefore, hpending, hkept, htag, rfl, ?_⟩
      rw [hkept]
      rfl
  · cases hlast

/-! ## Functions -/

theorem function?_eq_some {f : Function} (h : s.function? name = some f) :
    s.functions.find? name = some f ∧ f.declared = true :=
  Option.filter_eq_some_iff.mp h

theorem callable_eq_ok {f : Function} (h : s.callable name = .ok f) : s.function? name = some f := by
  unfold callable at h
  split at h
  · cases h
    assumption
  · cases h

/-- A declaration enters a function that was not declared in this pass: a new one, whose body is passed over, or
one of an earlier pass with its body. -/
theorem declareFunction_eq_ok {params : List Parameter} {d : Declared}
    (h : s.declareFunction name params line = .ok (d, s')) :
    (∀ f, s.functions.find? name = some f → f.declared = false) ∧
      ((d = .skip ∧ s' = { s with
          functions := s.functions.enter name { start := line + 1, params := params }
          declaring := some name }) ∨
        ∃ f finish, s.functions.find? name = some f ∧ f.finish = some finish ∧ f.start = line + 1 ∧
          d = .resume (finish + 1) ∧
          s' = { s with
            functions := s.functions.enter name { f with declared := true, params := params } }) := by
  unfold declareFunction at h
  dsimp only at h
  cases hfound : s.functions.find? name with
  | none =>
    rw [hfound] at h
    cases h
    exact ⟨by rintro f ⟨⟩, Or.inl ⟨rfl, rfl⟩⟩
  | some f =>
    rw [hfound] at h
    dsimp only at h
    by_cases hdeclared : f.declared = true
    · rw [if_pos hdeclared] at h
      cases h
    rw [if_neg hdeclared] at h
    have hnew : ∀ f', some f = some f' → f'.declared = false := by
      rintro f' ⟨⟩
      simpa using hdeclared
    refine ⟨hnew, ?_⟩
    cases hfinish : f.finish with
    | none =>
      rw [hfinish] at h
      cases h
      exact Or.inl ⟨rfl, rfl⟩
    | some finish =>
      rw [hfinish] at h
      dsimp only at h
      split_ifs at h with hstart
      · cases h
        exact Or.inr ⟨f, finish, rfl, hfinish, hstart, rfl, by rw [hfinish]⟩
      · cases h
        exact Or.inl ⟨rfl, rfl⟩

/-! ## Calls -/

theorem pushCall_eq_ok {frame : Frame} (h : s.pushCall frame = .ok s') :
    s.calls.length < maxCalls ∧ s' = { s with calls := frame :: s.calls } := by
  unfold pushCall at h
  split_ifs at h with hdepth
  cases h
  exact ⟨hdepth, rfl⟩

/-- Checked arguments are accepted one by one. -/
theorem checkArguments_eq_ok {params : List Parameter} {args : List Value}
    (hlen : args.length = params.length) (h : checkArguments name params args = .ok ()) :
    List.Forall₂ (fun binding p => binding.1 = p.name ∧ p.accepts binding.2 = true)
      ((params.map (·.name)).zip args) params := by
  induction params generalizing args with
  | nil => exact .nil
  | cons p ps ih =>
    cases args with
    | nil => cases hlen
    | cons v vs =>
      unfold checkArguments at h
      split_ifs at h with haccepts
      exact .cons ⟨rfl, haccepts⟩ (ih (Nat.succ.inj hlen) h)

/-- **A call pushes one frame**, which its function admits. -/
theorem call_eq_ok {args : List Value} {start : Nat} (h : s.call name args line = .ok (start, s')) :
    ∃ f frame, s.function? name = some f ∧ start = f.start ∧ frame.function = name ∧
      frame.returnLine = line ∧ f.Admits frame ∧ s.calls.length < maxCalls ∧
      s' = { s with calls := frame :: s.calls } := by
  unfold call at h
  obtain ⟨f, hcallable, hrest⟩ := bind_eq_ok h
  dsimp only at hrest
  by_cases harity : args.length ≠ f.params.length
  · rw [if_pos harity] at hrest
    cases hrest
  rw [if_neg harity] at hrest
  obtain ⟨_, hchecked, hpush⟩ := bind_eq_ok hrest
  obtain ⟨s₁, hpushed, hlast⟩ := bind_eq_ok hpush
  obtain ⟨hdepth, rfl⟩ := pushCall_eq_ok hpushed
  cases hlast
  have hlen : (args.map Value.normalized).length = f.params.length := by
    rw [List.length_map]
    exact Decidable.not_not.mp harity
  have hadmits := checkArguments_eq_ok hlen hchecked
  refine ⟨f, _, callable_eq_ok hcallable, rfl, rfl, rfl, ?_, hdepth, rfl⟩
  unfold Function.Admits
  dsimp only
  rw [hadmits.length_eq, List.take_length]
  exact hadmits

/-- The frame of a call binds the stored forms of its arguments. -/
theorem call_arguments {args : List Value} {start : Nat} (h : s.call name args line = .ok (start, s')) :
    ∃ frame, s' = { s with calls := frame :: s.calls } ∧
      frame.arguments = args.map Value.normalized := by
  unfold call at h
  obtain ⟨f, -, hrest⟩ := bind_eq_ok h
  dsimp only at hrest
  by_cases harity : args.length ≠ f.params.length
  · rw [if_pos harity] at hrest
    cases hrest
  rw [if_neg harity] at hrest
  obtain ⟨_, -, hpush⟩ := bind_eq_ok hrest
  obtain ⟨s₁, hpushed, hlast⟩ := bind_eq_ok hpush
  obtain ⟨-, rfl⟩ := pushCall_eq_ok hpushed
  cases hlast
  refine ⟨_, rfl, List.map_snd_zip ?_⟩
  rw [List.length_map, List.length_map]
  exact Nat.le_of_eq (Decidable.not_not.mp harity)

/-- **An iteration that starts pushes one frame**, for the first of its items. -/
theorem iterate_eq_ok {items : List Value} {start : Nat}
    (h : s.iterate name items line = .ok (some start, s')) :
    s.iteration = none ∧ ∃ f p first rest, s.function? name = some f ∧ start = f.start ∧
      f.params.head? = some p ∧ items.map Value.normalized = first :: rest ∧
      (∀ item ∈ items.map Value.normalized, p.accepts item = true) ∧ s.calls.length < maxCalls ∧
      s' = { s with
        calls := ⟨name, line, [(p.name, first)]⟩ :: s.calls
        iteration := some ⟨name, items.map Value.normalized, 0, s.calls.length + 1⟩ } := by
  unfold iterate at h
  cases hactive : s.iteration with
  | some it =>
    rw [hactive] at h
    cases h
  | none =>
    rw [hactive] at h
    obtain ⟨f, hcallable, h⟩ := bind_eq_ok h
    dsimp only at h
    cases hparam : f.params.head? with
    | none =>
      rw [hparam] at h
      cases h
    | some p =>
      rw [hparam] at h
      dsimp only at h
      split at h
      · cases h
      · rename_i hnone
        have haccepted : ∀ item ∈ items.map Value.normalized, p.accepts item = true := by
          intro item hitem
          simpa using List.find?_eq_none.mp hnone item hitem
        split at h
        · cases h
        · rename_i first rest hitems
          obtain ⟨s₁, hpushed, hlast⟩ := bind_eq_ok h
          obtain ⟨hdepth, rfl⟩ := pushCall_eq_ok hpushed
          cases hlast
          exact ⟨rfl, f, p, first, rest, callable_eq_ok hcallable, rfl, hparam, hitems, haccepted, hdepth,
            rfl⟩

/-- An iteration without items changes nothing. -/
theorem iterate_eq_ok_none {items : List Value} (h : s.iterate name items line = .ok (none, s')) :
    s' = s := by
  unfold iterate at h
  split at h
  · cases h
  · obtain ⟨f, -, h⟩ := bind_eq_ok h
    dsimp only at h
    split at h
    · cases h
    · split at h
      · cases h
      · split at h
        · cases h
          rfl
        · obtain ⟨s₁, -, hlast⟩ := bind_eq_ok h
          cases hlast

/-! ## Returns -/

/-- The iteration whose round ends now. -/
theorem endingRound?_eq_some {depth : Nat} {it : Iteration} :
    s.endingRound? name depth = some it ↔
      s.iteration = some it ∧ it.function = name ∧ it.depth = depth := by
  unfold endingRound?
  rw [Option.filter_eq_some_iff, Bool.and_eq_true, beq_iff_eq, beq_iff_eq]

/-- **What an `end` does**: it is ignored, it returns from an ordinary call, it starts the next round of the
iteration, or it ends the iteration. -/
theorem finishCall_eq_ok {reply : Returned} (h : s.finishCall name = .ok (reply, s')) :
    ∃ f, s.function? name = some f ∧
      ((reply = .ignored ∧ s' = s ∧ ∀ frame outer, s.calls = frame :: outer → frame.function ≠ name) ∨
        ∃ frame outer, s.calls = frame :: outer ∧ frame.function = name ∧
          ((s.endingRound? name (outer.length + 1) = none ∧ reply = .resume (frame.returnLine + 1) ∧
              s' = { s with calls := outer }) ∨
            ∃ it, s.endingRound? name (outer.length + 1) = some it ∧
              ((∃ item p, it.items[it.index + 1]? = some item ∧ f.params.head? = some p ∧
                  reply = .resume f.start ∧
                  s' = { s with
                    calls := ⟨name, frame.returnLine, [(p.name, item)]⟩ :: outer
                    iteration := some { it with index := it.index + 1 } }) ∨
                ((it.items[it.index + 1]? = none ∨ f.params.head? = none) ∧
                  reply = .resume (frame.returnLine + 1) ∧
                  s' = { s with calls := outer, iteration := none })))) := by
  unfold finishCall at h
  cases hfunction : s.function? name with
  | none =>
    rw [hfunction] at h
    cases h
  | some f =>
    rw [hfunction] at h
    refine ⟨f, rfl, ?_⟩
    dsimp only at h
    cases hcalls : s.calls with
    | nil =>
      rw [hcalls] at h
      cases h
      exact Or.inl ⟨rfl, rfl, by rintro frame outer ⟨⟩⟩
    | cons frame outer =>
      rw [hcalls] at h
      dsimp only at h
      split_ifs at h with hname
      · refine Or.inr ⟨frame, outer, rfl, hname, ?_⟩
        cases hround : s.endingRound? name (outer.length + 1) with
        | none =>
          rw [hround] at h
          cases h
          exact Or.inl ⟨rfl, rfl, rfl⟩
        | some it =>
          rw [hround] at h
          dsimp only at h
          refine Or.inr ⟨it, rfl, ?_⟩
          cases hitem : it.items[it.index + 1]? with
          | none =>
            rw [hitem] at h
            cases h
            exact Or.inr ⟨Or.inl rfl, rfl, rfl⟩
          | some item =>
            cases hparam : f.params.head? with
            | none =>
              rw [hitem, hparam] at h
              cases h
              exact Or.inr ⟨Or.inr rfl, rfl, rfl⟩
            | some p =>
              rw [hitem, hparam] at h
              cases h
              exact Or.inl ⟨item, p, rfl, rfl, rfl, rfl⟩
      · cases h
        refine Or.inl ⟨rfl, rfl, ?_⟩
        rintro _ _ ⟨⟩
        exact hname

end Symbols

end LineScript
