/-
# Passes and redeclaration

The end of a pass keeps what a store holds and withdraws its declarations.  A variable that was not provided from outside
is then closed (`Closed`) and a function known but not declared, until it is declared again, whatever else happens in
between (`Never`).

* `find?_perform_of_closed`: no operation but its declaration concerns a closed variable, and it goes only when the whole
  store is cleared;
* `declare_of_kept`, `declare_of_other_tag`: the declaration of a variable that has kept a value;
* `ended_perform`: the body of an ended function stays what it is until the function is declared again;
* `declareFunction_of_ended`: its declaration on the line of the earlier one goes on behind the body.

Main statement: a soft reset keeps every value and forces redeclaration (`reset_withdraws_declarations`).
-/
import LineScript.Proofs.Symbols.Typing
import LineScript.Proofs.Symbols.Iteration

namespace LineScript

/-- With distinct names, an entry that is not kept leaves no other one under its name. -/
theorem Roster.find?_filter_eq_none {α : Type} {r : Roster α} (hr : r.names.Nodup) {p : α → Bool} {name : String}
    (h : ∀ a, r.find? name = some a → p a = false) : (r.filter p).find? name = none := by
  cases hfound : (r.filter p).find? name with
  | none => rfl
  | some b =>
    obtain ⟨hmem, hkept⟩ := List.mem_filter.mp (mem_of_find? hfound)
    obtain ⟨a, ha⟩ := Option.isSome_iff_exists.mp (has_filter (Option.isSome_of_eq_some hfound))
    obtain rfl : a = b := congrArg Prod.snd (List.inj_on_of_nodup_map hr (mem_of_find? ha) hmem rfl)
    exact nomatch (h a ha).symm.trans hkept

namespace Symbols

variable {s t : Symbols} {name : String} {isGlobal : Bool} {v : Value} {var : Variable} {f : Function} {line : Nat}

/-! ## Distinct names -/

/-- No scope has two variables of one name. -/
def Distinct (s : Symbols) : Prop := ∀ isGlobal, (s.table isGlobal).table.names.Nodup

theorem Distinct.withTable (h : s.Distinct) {c : Catalog Variable} (hc : c.table.names.Nodup) (isGlobal : Bool) :
    (s.withTable isGlobal c).Distinct := by
  intro other
  rcases table_withTable_cases s isGlobal other c with ⟨-, htable⟩ | ⟨-, htable⟩
  · rw [htable]
    exact hc
  · rw [htable]
    exact h other

theorem Distinct.enter (h : s.Distinct) (isGlobal : Bool) (name : String) (var : Variable) :
    (s.withTable isGlobal ((s.table isGlobal).enter name var)).Distinct :=
  h.withTable (Roster.nodup_enter (h isGlobal) name var) isGlobal

theorem Distinct.of_variables (h : s.Distinct) (hlocals : t.locals = s.locals) (hglobals : t.globals = s.globals) :
    t.Distinct := by
  intro isGlobal
  rw [table, hlocals, hglobals]
  exact h isGlobal

theorem Distinct.perform (h : s.Distinct) (c : Command) : (s.perform c).2.Distinct := by
  by_cases hspares : c.sparesVariables = true
  · obtain ⟨hlocals, hglobals⟩ := variables_perform s hspares
    exact h.of_variables hlocals hglobals
  cases c with
  | declare name initial isGlobal =>
    refine settle_keeps h _ fun s' hok => ?_
    obtain ⟨var, rfl⟩ := declare_eq_ok hok
    exact h.enter isGlobal name var
  | assign name value isGlobal =>
    refine settle_keeps h _ fun s' hok => ?_
    obtain ⟨var, rfl⟩ := assign_eq_ok hok
    exact h.enter isGlobal name var
  | provide name value => exact h.enter true name _
  | declareFunction | finishDeclaration | call | finishCall | iterate => exact absurd rfl hspares
  | resetPass =>
    intro isGlobal
    cases isGlobal with
    | false => exact (Roster.names_map _ s.locals.table).symm ▸ h false
    | true => exact (Roster.names_map _ s.globals.table).symm ▸ h true
  | clear =>
    intro isGlobal
    cases isGlobal with
    | false => exact List.nodup_nil
    | true => exact (h true).sublist (List.filter_sublist.map _)

theorem Reachable.distinct (h : Reachable s) : s.Distinct := by
  induction h with
  | empty => exact fun isGlobal => by cases isGlobal <;> exact List.nodup_nil
  | step c _ ih => exact ih.perform c

/-! ## Histories without some operation -/

/-- No operation of a history does a certain thing to the store that it meets. -/
def Never (does : Symbols → Command → Prop) (s : Symbols) : List Command → Prop
  | [] => True
  | c :: rest => ¬ does s c ∧ Never does (s.perform c).2 rest

/-- What the other operations keep, such a history keeps. -/
theorem Never.keeps {does : Symbols → Command → Prop} {P : Symbols → Prop} {cs : List Command}
    (hstep : ∀ s, P s → ∀ c ∈ cs, ¬ does s c → P (s.perform c).2) (hcs : Never does s cs) (h : P s) :
    P (s.performAll cs) := by
  induction cs generalizing s with
  | nil => exact h
  | cons c rest ih =>
    obtain ⟨hfirst, hrest⟩ := hcs
    exact ih (fun s hs c' hc' => hstep s hs c' (List.mem_cons_of_mem c hc')) hrest
      (hstep s h c List.mem_cons_self hfirst)

/-! ## Closed variables -/

/-- An operation declares a variable with success, or provides it from outside. -/
def Opens (isGlobal : Bool) (name : String) (s : Symbols) : Command → Prop
  | .declare other initial scope =>
    scope = isGlobal ∧ other = name ∧ ∃ t, s.declare other initial scope = .ok t
  | .provide other _ => isGlobal = true ∧ other = name
  | _ => False

/-- A variable is not there, or it can be neither read nor assigned. -/
def Closed (s : Symbols) (isGlobal : Bool) (name : String) : Prop :=
  ∀ var, (s.table isGlobal).find? name = some var → var.isOpen = false

/-- An entered variable is another one, or it is the one that is looked up. -/
theorem find?_enter_cases (s : Symbols) (isGlobal scope : Bool) (name other : String) (var : Variable) :
    (scope = isGlobal ∧ other = name) ∨
      ((s.withTable scope ((s.table scope).enter other var)).table isGlobal).find? name =
        (s.table isGlobal).find? name := by
  rcases table_withTable_cases s scope isGlobal ((s.table scope).enter other var) with ⟨rfl, htable⟩ | ⟨-, htable⟩
  · by_cases hname : name = other
    · exact Or.inl ⟨rfl, hname.symm⟩
    · rw [htable, Catalog.find?_enter_of_ne _ hname]
      exact Or.inr rfl
  · rw [htable]
    exact Or.inr rfl

/-- The end of a pass withdraws the declaration of a variable, unless it was provided from outside. -/
theorem find?_resetPass (s : Symbols) (hvar : (s.table isGlobal).find? name = some var) (hown : var.hostOwned = false) :
    (s.resetPass.table isGlobal).find? name = some { var with declared := false } := by
  cases isGlobal with
  | false =>
    show (s.locals.map _).find? name = _
    rw [Catalog.find?_map, show s.locals.find? name = some var from hvar]
    rfl
  | true =>
    show (s.globals.map _).find? name = _
    rw [Catalog.find?_map, show s.globals.find? name = some var from hvar]
    simp [hown]

/-- What is not there is not there after the pass. -/
theorem find?_resetPass_eq_none (s : Symbols) (hnone : (s.table isGlobal).find? name = none) :
    (s.resetPass.table isGlobal).find? name = none := by
  cases isGlobal with
  | false =>
    show (s.locals.map _).find? name = none
    rw [Catalog.find?_map, show s.locals.find? name = none from hnone]
    rfl
  | true =>
    show (s.globals.map _).find? name = none
    rw [Catalog.find?_map, show s.globals.find? name = none from hnone]
    rfl

theorem Variable.eq_of_not_isOpen (h : var.isOpen = false) :
    var.declared = false ∧ var.hostOwned = false := by
  simpa [Variable.isOpen] using h

/-- **A closed variable stays as it is** under every operation that does not open it, unless the store is cleared. -/
theorem find?_perform_of_closed (hs : s.Distinct) (h : s.Closed isGlobal name) {c : Command}
    (hc : ¬ Opens isGlobal name s c) :
    ((s.perform c).2.table isGlobal).find? name = (s.table isGlobal).find? name ∨
      c = .clear ∧ ((s.perform c).2.table isGlobal).find? name = none := by
  by_cases hspares : c.sparesVariables = true
  · obtain ⟨hlocals, hglobals⟩ := variables_perform s hspares
    left
    rw [table, table, hlocals, hglobals]
  cases c with
  | declare other initial scope =>
    refine Or.inl (settle_keeps (P := fun s' => (s'.table isGlobal).find? name = (s.table isGlobal).find? name) rfl _
      fun s' hok => ?_)
    obtain ⟨var, rfl⟩ := declare_eq_ok hok
    rcases find?_enter_cases s isGlobal scope name other var with ⟨hscope, hname⟩ | hsame
    · exact absurd ⟨hscope, hname, _, hok⟩ hc
    · exact hsame
  | assign other value scope =>
    refine Or.inl (settle_keeps (P := fun s' => (s'.table isGlobal).find? name = (s.table isGlobal).find? name) rfl _
      fun s' hok => ?_)
    obtain ⟨var, hfound, hopen, -, rfl⟩ := assign_entry hok
    rcases find?_enter_cases s isGlobal scope name other { var with value := some value.normalized } with
      ⟨rfl, rfl⟩ | hsame
    · rw [h var hfound] at hopen
      cases hopen
    · exact hsame
  | provide other value =>
    left
    rcases find?_enter_cases s isGlobal true name other ⟨some value.normalized, true, true⟩ with ⟨rfl, rfl⟩ | hsame
    · exact absurd ⟨rfl, rfl⟩ hc
    · exact hsame
  | declareFunction | finishDeclaration | call | finishCall | iterate => exact absurd rfl hspares
  | resetPass =>
    left
    cases hfound : (s.table isGlobal).find? name with
    | none => exact find?_resetPass_eq_none s hfound
    | some var =>
      obtain ⟨hpending, hown⟩ := Variable.eq_of_not_isOpen (h var hfound)
      refine (find?_resetPass s hfound hown).trans ?_
      rw [← hpending]
  | clear =>
    refine Or.inr ⟨rfl, ?_⟩
    cases isGlobal with
    | false => rfl
    | true => exact Roster.find?_filter_eq_none (hs true) fun var hfound => (Variable.eq_of_not_isOpen (h var hfound)).2

/-- Over a history that does not open it a variable stays closed. -/
theorem Closed.performAll {cs : List Command} (hs : s.Distinct) (h : s.Closed isGlobal name)
    (hcs : Never (Opens isGlobal name) s cs) : (s.performAll cs).Closed isGlobal name := by
  have hkept := hcs.keeps (P := fun s => s.Distinct ∧ s.Closed isGlobal name) (fun s hs c _ hc => ?_) ⟨hs, h⟩
  · exact hkept.2
  · refine ⟨hs.1.perform c, fun var hvar => ?_⟩
    rcases find?_perform_of_closed hs.1 hs.2 hc with hsame | ⟨-, hgone⟩
    · exact hs.2 var (hsame.symm.trans hvar)
    · cases hgone.symm.trans hvar

/-- Over a history that neither opens it nor clears the store a closed variable stays as it is. -/
theorem Closed.find?_performAll {cs : List Command} (hs : s.Distinct) (h : s.Closed isGlobal name)
    (hcs : Never (Opens isGlobal name) s cs) (hclear : .clear ∉ cs) :
    ((s.performAll cs).table isGlobal).find? name = (s.table isGlobal).find? name := by
  have hkept := hcs.keeps (P := fun t => t.Distinct ∧ (t.table isGlobal).find? name = (s.table isGlobal).find? name)
    (fun t ht c hmem hc => ?_) ⟨hs, rfl⟩
  · exact hkept.2
  · have hclosed : t.Closed isGlobal name := fun var hvar => h var (ht.2.symm.trans hvar)
    refine ⟨ht.1.perform c, ?_⟩
    rcases find?_perform_of_closed ht.1 hclosed hc with hsame | ⟨rfl, -⟩
    · exact hsame.trans ht.2
    · exact absurd hmem hclear

/-! ## Reading and writing -/

/-- The reach that finds the variables of a scope, and nothing else. -/
def scopeReach (isGlobal : Bool) : Reach := if isGlobal then .globals else .locals

theorem lookup_scopeReach (s : Symbols) (isGlobal : Bool) (name : String) :
    s.lookup name (scopeReach isGlobal) = readable (s.table isGlobal) isGlobal name := by
  cases isGlobal <;> rfl

/-- A closed variable cannot be read. -/
theorem Closed.readable (h : s.Closed isGlobal name) :
    ∃ fault, Symbols.readable (s.table isGlobal) isGlobal name = .error fault ∧ fault.kind = .reference := by
  unfold Symbols.readable
  cases hfound : (s.table isGlobal).find? name with
  | none => exact ⟨_, rfl, rfl⟩
  | some var =>
    dsimp only
    rw [if_neg (by simp [h var hfound])]
    exact ⟨_, rfl, rfl⟩

/-- Where a local variable is closed, a name without mark reads a parameter at most. -/
theorem Closed.lookup_nearest (h : s.Closed false name) (hv : s.lookup name .nearest = .ok v) :
    s.lookup name .parameters = .ok v := by
  obtain ⟨fault, hfault, -⟩ := h.readable
  unfold lookup at hv ⊢
  dsimp only at hv ⊢
  cases hcalls : s.calls.head? with
  | none =>
    rw [hcalls] at hv
    exact nomatch hfault.symm.trans hv
  | some frame =>
    rw [hcalls] at hv
    dsimp only [Option.bind_some] at hv ⊢
    cases hparam : frame.param? name with
    | none =>
      rw [hparam] at hv
      exact nomatch hfault.symm.trans hv
    | some w =>
      rw [hparam] at hv
      exact hv

/-- A closed variable cannot be assigned. -/
theorem Closed.assign (h : s.Closed isGlobal name) (value : Value) :
    ∃ fault, s.assign name value isGlobal = .error fault ∧ fault.kind = .reference := by
  unfold Symbols.assign
  dsimp only
  split
  · exact ⟨_, rfl, rfl⟩
  · cases hfound : (s.table isGlobal).find? name with
    | none => exact ⟨_, rfl, rfl⟩
    | some var =>
      dsimp only
      rw [if_neg (by simp [h var hfound])]
      exact ⟨_, rfl, rfl⟩

/-- **The declaration of a variable that has kept a value** takes it back, with an initial value of the same tag or with
none. -/
theorem declare_of_kept {initial : Option Value} (hvar : (s.table isGlobal).find? name = some var)
    (hpending : var.declared = false) (hvalue : var.value = some v)
    (hsame : ∀ given, initial = some given → given.normalized.tag = v.tag) :
    s.declare name initial isGlobal =
      .ok (s.withTable isGlobal ((s.table isGlobal).enter name { var with declared := true })) := by
  have hkept : ({ var with value := var.value <|> initial.map Value.normalized, declared := true } : Variable) =
      { var with declared := true } := by
    rw [hvalue]
    rfl
  unfold declare
  dsimp only
  rw [hvar]
  dsimp only
  rw [if_neg (by simp [hpending]), hkept]
  cases initial with
  | none => rfl
  | some given =>
    have hchecked : checkTag name var.value given.normalized = .ok () := by
      rw [hvalue]
      exact if_pos (hsame given rfl).symm
    dsimp only [Option.map_some]
    rw [hchecked]
    rfl

/-- An initial value of another tag is refused. -/
theorem declare_of_other_tag {given : Value} (hvar : (s.table isGlobal).find? name = some var)
    (hpending : var.declared = false) (hvalue : var.value = some v) (hne : given.normalized.tag ≠ v.tag) :
    s.declare name (some given) isGlobal = .error (.variableType name v.tag given.normalized.tag) := by
  have hchecked : checkTag name var.value given.normalized = .error (.variableType name v.tag given.normalized.tag) := by
    rw [hvalue]
    exact if_neg (Ne.symm hne)
  unfold declare
  dsimp only
  rw [hvar]
  dsimp only
  rw [if_neg (by simp [hpending])]
  dsimp only [Option.map_some]
  rw [hchecked]
  rfl

/-- What has just been declared is read with its value. -/
theorem readable_enter (t : Catalog Variable) (isGlobal : Bool) (hdeclared : var.declared = true)
    (hvalue : var.value = some v) : readable (t.enter name var) isGlobal name = .ok v := by
  unfold readable
  rw [Catalog.find?_enter_self]
  dsimp only
  rw [if_pos (by simp [Variable.isOpen, hdeclared]), hvalue]

/-- A variable can be neither read nor assigned; a name without mark reads a parameter at most. -/
structure Unusable (s : Symbols) (isGlobal : Bool) (name : String) : Prop where
  lookup : ∃ fault, s.lookup name (scopeReach isGlobal) = .error fault ∧ fault.kind = .reference
  nearest : isGlobal = false → ∀ v, s.lookup name .nearest = .ok v → s.lookup name .parameters = .ok v
  assign : ∀ value, ∃ fault, s.assign name value isGlobal = .error fault ∧ fault.kind = .reference

theorem Closed.unusable (h : s.Closed isGlobal name) : s.Unusable isGlobal name where
  lookup := by
    rw [lookup_scopeReach]
    exact h.readable
  nearest := by
    rintro rfl v hv
    exact h.lookup_nearest hv
  assign := h.assign

/-- The declaration of a variable gives it a value back, whatever initial value of the same tag it has, and is refused for
one of another tag. -/
structure TakesBack (s : Symbols) (isGlobal : Bool) (name : String) (v : Value) : Prop where
  same : ∀ initial, (∀ given, initial = some given → given.normalized.tag = v.tag) →
    ∃ t, s.declare name initial isGlobal = .ok t ∧ t.lookup name (scopeReach isGlobal) = .ok v ∧
      (isGlobal = false → s.calls.head?.bind (·.param? name) = none → t.lookup name .nearest = .ok v)
  other : ∀ given, given.normalized.tag ≠ v.tag →
    ∃ fault, s.declare name (some given) isGlobal = .error fault ∧ fault.kind = .typing

/-- **A variable that has kept its value takes it back.** -/
theorem takesBack_of_kept (hvar : (s.table isGlobal).find? name = some var) (hpending : var.declared = false)
    (hvalue : var.value = some v) : s.TakesBack isGlobal name v where
  same := by
    intro initial hsame
    have hread : readable ((s.table isGlobal).enter name { var with declared := true }) isGlobal name = .ok v :=
      readable_enter _ isGlobal rfl hvalue
    refine ⟨_, declare_of_kept hvar hpending hvalue hsame, ?_, ?_⟩
    · rw [lookup_scopeReach, table_withTable]
      exact hread
    · rintro rfl hparam
      unfold lookup
      rw [calls_withTable]
      dsimp only
      rw [hparam]
      exact hread
  other := fun given hne => ⟨_, declare_of_other_tag hvar hpending hvalue hne, rfl⟩

/-! ## Functions -/

/-- An operation declares a function with success. -/
def DeclaresFunction (name : String) (s : Symbols) : Command → Prop
  | .declareFunction other params line => other = name ∧ ∃ answer, s.declareFunction other params line = .ok answer
  | _ => False

@[simp] theorem functions_withTable (s : Symbols) (isGlobal : Bool) (t : Catalog Variable) :
    (s.withTable isGlobal t).functions = s.functions := by
  cases isGlobal <;> rfl

/-- **An ended function stays as it is** until it is declared again or the store is cleared; the end of a pass withdraws
its declaration. -/
theorem ended_perform (hs : s.Linked) (hf : s.functions.find? name = some f) (hended : f.ended = true) {c : Command}
    (hc : ¬ DeclaresFunction name s c) (hclear : c ≠ .clear) :
    (s.perform c).2.functions.find? name = some f ∨
      c = .resetPass ∧ (s.perform c).2.functions.find? name = some { f with declared := false } := by
  cases c with
  | declare other initial scope =>
    refine Or.inl (settle_keeps (P := fun t => t.functions.find? name = some f) hf _ fun t hok => ?_)
    obtain ⟨var, rfl⟩ := declare_eq_ok hok
    rwa [functions_withTable]
  | assign other value scope =>
    refine Or.inl (settle_keeps (P := fun t => t.functions.find? name = some f) hf _ fun t hok => ?_)
    obtain ⟨var, rfl⟩ := assign_eq_ok hok
    rwa [functions_withTable]
  | provide other value => exact Or.inl hf
  | declareFunction other params line =>
    refine Or.inl (settle_keeps (P := fun t => t.functions.find? name = some f) hf _ fun (d, t) hok => ?_)
    have hne : name ≠ other := by
      rintro rfl
      exact hc ⟨rfl, _, hok⟩
    obtain ⟨-, ⟨-, rfl⟩ | ⟨g, finish, -, -, -, -, rfl⟩⟩ := declareFunction_eq_ok hok <;>
      exact (Catalog.find?_enter_of_ne _ hne _).trans hf
  | finishDeclaration line =>
    left
    show (s.finishDeclaration line).functions.find? name = some f
    unfold finishDeclaration
    cases hopened : s.declaring with
    | none => exact hf
    | some other =>
      -- The body that is open is one without an end.
      obtain ⟨g, hg, -, hopen⟩ := hs.declaring other hopened
      have hne : name ≠ other := by
        rintro rfl
        obtain rfl := Option.some.inj (hf.symm.trans hg)
        exact nomatch hended.symm.trans hopen
      dsimp only
      rw [hg]
      exact (Catalog.find?_enter_of_ne _ hne _).trans hf
  | call other args line =>
    refine Or.inl (settle_keeps (P := fun t => t.functions.find? name = some f) hf _ fun (start, t) hok => ?_)
    obtain ⟨frame, rfl, -⟩ := call_arguments hok
    exact hf
  | finishCall other =>
    refine Or.inl (settle_keeps (P := fun t => t.functions.find? name = some f) hf _ fun (r, t) hok => ?_)
    obtain ⟨g, -, ⟨-, rfl, -⟩ | ⟨frame, outer, -, -, hcase⟩⟩ := finishCall_eq_ok hok
    · exact hf
    rcases hcase with ⟨-, -, rfl⟩ | ⟨it, -, ⟨item, p, -, -, -, rfl⟩ | ⟨-, -, rfl⟩⟩ <;> exact hf
  | iterate other items line =>
    refine Or.inl (settle_keeps (P := fun t => t.functions.find? name = some f) hf _ fun (start, t) hok => ?_)
    cases start with
    | none =>
      rw [iterate_eq_ok_none hok]
      exact hf
    | some start =>
      obtain ⟨-, g, p, first, rest, -, -, -, -, -, -, rfl⟩ := iterate_eq_ok hok
      exact hf
  | resetPass =>
    refine Or.inr ⟨rfl, ?_⟩
    show (s.functions.map _).find? name = _
    rw [Catalog.find?_map, hf]
    rfl
  | clear => exact absurd rfl hclear

/-- Over a history that does not declare it an ended function of an earlier pass stays as it is. -/
theorem ended_performAll {cs : List Command} (hs : s.WellFormed) (hf : s.functions.find? name = some f)
    (hended : f.ended = true) (hpending : f.declared = false) (hcs : Never (DeclaresFunction name) s cs)
    (hclear : .clear ∉ cs) : (s.performAll cs).functions.find? name = some f := by
  have hkept := hcs.keeps (P := fun t => t.WellFormed ∧ t.functions.find? name = some f)
    (fun t ht c hmem hc => ?_) ⟨hs, hf⟩
  · exact hkept.2
  · refine ⟨ht.1.perform c, ?_⟩
    rcases ended_perform ht.1.toLinked ht.2 hended hc (by rintro rfl; exact hclear hmem) with hsame | ⟨-, hsame⟩
    · exact hsame
    · rw [hsame, ← hpending]

/-- Within a pass an ended function that is declared stays as it is. -/
theorem declared_performAll {cs : List Command} (hs : s.WellFormed) (hf : s.functions.find? name = some f)
    (hended : f.ended = true) (hdeclared : f.declared = true) (hcs : ∀ c ∈ cs, c.isReset = false) :
    (s.performAll cs).functions.find? name = some f := by
  induction cs generalizing s with
  | nil => exact hf
  | cons c rest ih =>
    have hreset := hcs c List.mem_cons_self
    have hc : ¬ DeclaresFunction name s c := by
      cases c with
      | declareFunction other params line =>
        rintro ⟨rfl, ⟨d, t⟩, hok⟩
        exact nomatch hdeclared.symm.trans ((declareFunction_eq_ok hok).1 f hf)
      | _ => exact id
    refine ih (hs.perform c) ?_ fun c' hc' => hcs c' (List.mem_cons_of_mem c hc')
    rcases ended_perform hs.toLinked hf hended hc (by rintro rfl; cases hreset) with hsame | ⟨rfl, -⟩
    · exact hsame
    · cases hreset

/-- **An ended function of an earlier pass that is declared on its line again** goes on behind its body. -/
theorem declareFunction_of_ended {finish : Nat} (hf : s.functions.find? name = some f) (hpending : f.declared = false)
    (hfinish : f.finish = some finish) (hstart : f.start = line + 1) (params : List Parameter) :
    s.declareFunction name params line = .ok (.resume (finish + 1), { s with
      functions := s.functions.enter name { f with declared := true, params := params } }) := by
  unfold declareFunction
  dsimp only
  rw [hf]
  dsimp only
  rw [if_neg (by simp [hpending]), hfinish]
  dsimp only
  rw [if_pos hstart]

/-- A call with arguments that the function accepts begins where its body does. -/
theorem call_of_checked {args : List Value} (hf : s.function? name = some f) (hlen : args.length = f.params.length)
    (hargs : checkArguments name f.params (args.map Value.normalized) = .ok ()) (hdepth : s.calls.length < maxCalls)
    (line : Nat) : ∃ t, s.call name args line = .ok (f.start, t) := by
  unfold call callable
  rw [hf]
  dsimp only [bind, Except.bind]
  rw [if_neg (not_not.mpr hlen), hargs]
  dsimp only [pushCall]
  rw [if_pos hdepth]
  exact ⟨_, rfl⟩

/-- Calls and iterations of a function begin at a line, and calls with arguments that some parameters accept are made. -/
structure StartsAt (s : Symbols) (name : String) (params : List Parameter) (start : Nat) : Prop where
  call : ∀ args line begun t, s.call name args line = .ok (begun, t) → begun = start
  iterate : ∀ items line begun t, s.iterate name items line = .ok (some begun, t) → begun = start
  made : ∀ args line, args.length = params.length →
    checkArguments name params (args.map Value.normalized) = .ok () → s.calls.length < maxCalls →
      ∃ t, s.call name args line = .ok (start, t)

theorem startsAt_of_function? (hf : s.function? name = some f) : s.StartsAt name f.params f.start where
  call := by
    intro args line begun t hok
    obtain ⟨g, frame, hg, rfl, -⟩ := call_eq_ok hok
    rw [Option.some.inj (hf.symm.trans hg)]
  iterate := by
    intro items line begun t hok
    obtain ⟨-, g, p, first, rest, hg, rfl, -⟩ := iterate_eq_ok hok
    rw [Option.some.inj (hf.symm.trans hg)]
  made := fun args line hlen hargs hdepth => call_of_checked hf hlen hargs hdepth line

/-! ## The end of a pass -/

/-- The end of a pass withdraws declarations and nothing else. -/
theorem resetPass_keeps (s : Symbols) :
    (∀ isGlobal, (s.resetPass.table isGlobal).order = (s.table isGlobal).order ∧
      ∀ name, ((s.resetPass.table isGlobal).find? name).map (fun var => (var.value, var.hostOwned)) =
        ((s.table isGlobal).find? name).map fun var => (var.value, var.hostOwned)) ∧
    s.resetPass.functions.order = s.functions.order ∧
    ∀ name, s.resetPass.functions.find? name =
      (s.functions.find? name).map fun f => { f with declared := false } := by
  refine ⟨fun isGlobal => ?_, rfl, fun name => Catalog.find?_map _ _ _⟩
  cases isGlobal with
  | false =>
    refine ⟨rfl, fun name => ?_⟩
    show ((s.locals.map _).find? name).map _ = (s.locals.find? name).map _
    rw [Catalog.find?_map, Option.map_map]
    rfl
  | true =>
    refine ⟨rfl, fun name => ?_⟩
    show ((s.globals.map _).find? name).map _ = (s.globals.find? name).map _
    rw [Catalog.find?_map, Option.map_map]
    rfl

/-- Behind the end of a pass a variable is closed until it is declared, and takes its value back then. -/
theorem Reachable.withdrawn (h : Reachable s) (hvar : (s.table isGlobal).find? name = some var)
    (hown : var.hostOwned = false) {cs : List Command} (hcs : Never (Opens isGlobal name) s.resetPass cs) :
    (s.resetPass.performAll cs).Unusable isGlobal name ∧
      (.clear ∉ cs → ∀ v, var.value = some v → (s.resetPass.performAll cs).TakesBack isGlobal name v) := by
  have hdistinct : s.resetPass.Distinct := h.distinct.perform .resetPass
  have hwithdrawn := find?_resetPass s hvar hown
  have hclosed : s.resetPass.Closed isGlobal name := by
    intro var' hvar'
    obtain rfl := Option.some.inj (hwithdrawn.symm.trans hvar')
    exact hown
  refine ⟨(hclosed.performAll hdistinct hcs).unusable, fun hclear v hvalue => ?_⟩
  have hkept := (hclosed.find?_performAll hdistinct hcs hclear).trans hwithdrawn
  exact takesBack_of_kept hkept rfl hvalue

/-- Behind the end of a pass an ended function keeps its body, and its declaration gives it back. -/
theorem Reachable.resumed (h : Reachable s) {finish : Nat} (hf : s.functions.find? name = some f)
    (hended : f.ended = true) (hfinish : f.finish = some finish) (hstart : f.start = line + 1) {cs : List Command}
    (hcs : Never (DeclaresFunction name) s.resetPass cs) (hclear : .clear ∉ cs) (params : List Parameter) :
    ∃ t, (s.resetPass.performAll cs).declareFunction name params line = .ok (.resume (finish + 1), t) ∧
      t.declaring = (s.resetPass.performAll cs).declaring ∧
      ∀ cs', (∀ c ∈ cs', c.isReset = false) → (t.performAll cs').StartsAt name params f.start := by
  have hreset : Reachable s.resetPass := h.step .resetPass
  have hwithdrawn : s.resetPass.functions.find? name = some { f with declared := false } := by
    rw [(resetPass_keeps s).2.2 name, hf]
    rfl
  have hkept := ended_performAll hreset.wellFormed hwithdrawn hended rfl hcs hclear
  have hdeclare := declareFunction_of_ended hkept rfl hfinish hstart params
  refine ⟨_, hdeclare, rfl, fun cs' hcs' => ?_⟩
  have hwell := (hreset.performAll cs).wellFormed.declareFunction hdeclare
  have hdeclared := declared_performAll hwell (Catalog.find?_enter_self _ _ _) hended rfl hcs'
  exact startsAt_of_function? (Option.filter_eq_some_iff.mpr ⟨hdeclared, rfl⟩)

/-- **A soft reset keeps every value and forces redeclaration.**  In every store that operations lead to:

* every variable keeps its value and its owner, every function its body, and all names their order;
* a variable that was not provided from outside can be neither read nor assigned, whatever operations follow, until one of
  them declares it or provides it from outside;
* as long as the store is not cleared either, such a variable with a value takes this value back by its declaration, with
  an initial value of the same tag or with none, and the declaration fails for one of another tag;
* an ended function that is next declared on the line where it was declared before goes on behind its old body without
  passing over it, and its calls begin where they began before, as long as the pass goes on. -/
theorem reset_withdraws_declarations (h : Reachable s) :
    ((∀ isGlobal, (s.resetPass.table isGlobal).order = (s.table isGlobal).order ∧
        ∀ name, ((s.resetPass.table isGlobal).find? name).map (fun var => (var.value, var.hostOwned)) =
          ((s.table isGlobal).find? name).map fun var => (var.value, var.hostOwned)) ∧
      s.resetPass.functions.order = s.functions.order ∧
      ∀ name, s.resetPass.functions.find? name =
        (s.functions.find? name).map fun f => { f with declared := false }) ∧
    (∀ isGlobal name var, (s.table isGlobal).find? name = some var → var.hostOwned = false →
      ∀ cs, Never (Opens isGlobal name) s.resetPass cs →
        (s.resetPass.performAll cs).Unusable isGlobal name ∧
        (.clear ∉ cs → ∀ v, var.value = some v → (s.resetPass.performAll cs).TakesBack isGlobal name v)) ∧
    ∀ name f line, s.functions.find? name = some f → f.ended = true → f.start = line + 1 →
      (f.declared = true → s.StartsAt name f.params f.start) ∧
      ∃ finish, f.finish = some finish ∧
        ∀ cs, Never (DeclaresFunction name) s.resetPass cs → .clear ∉ cs → ∀ params,
          ∃ t, (s.resetPass.performAll cs).declareFunction name params line = .ok (.resume (finish + 1), t) ∧
            t.declaring = (s.resetPass.performAll cs).declaring ∧
            ∀ cs', (∀ c ∈ cs', c.isReset = false) → (t.performAll cs').StartsAt name params f.start := by
  refine ⟨resetPass_keeps s, fun isGlobal name var hvar hown cs hcs => h.withdrawn hvar hown hcs, ?_⟩
  intro name f line hf hended hstart
  refine ⟨fun hdeclared => startsAt_of_function? (Option.filter_eq_some_iff.mpr ⟨hf, hdeclared⟩), ?_⟩
  obtain ⟨finish, hfinish⟩ := Option.isSome_iff_exists.mp ((h.wellFormed.ended name f hf).mp hended)
  exact ⟨finish, hfinish, fun cs hcs hclear params => h.resumed hf hended hfinish hstart hcs hclear params⟩

/-- A word that was stored as text and a function of an earlier pass, with the declaration of another variable before
their own. -/
theorem reset_withdraws_declarations_until_declared :
    let s := ({} : Symbols).performAll [.declare "x" (some (.identifier "a")) false, .declareFunction "f" [] 2,
      .finishDeclaration 5]
    Reachable s ∧ (s.resetPass.performAll [.declare "y" none false]).Unusable false "x" ∧
      (s.resetPass.performAll [.declare "y" none false]).TakesBack false "x" (.string "a") ∧
      ∃ t, (s.resetPass.performAll [.declare "y" none false]).declareFunction "f" [] 2 = .ok (.resume 6, t) ∧
        t.declaring = none ∧ t.StartsAt "f" [] 3 := by
  intro s
  have hreachable : Reachable s := Reachable.empty.performAll _
  obtain ⟨-, hvariables, hfunctions⟩ := reset_withdraws_declarations hreachable
  have hopens : Never (Opens false "x") s.resetPass [.declare "y" none false] := by
    refine ⟨?_, trivial⟩
    rintro ⟨-, hname, -⟩
    exact absurd hname (by decide)
  obtain ⟨hunusable, hback⟩ := hvariables false "x" ⟨some (.string "a"), true, false⟩ rfl rfl _ hopens
  obtain ⟨-, finish, hfinish, hresumes⟩ := hfunctions "f" ⟨3, some 5, [], true, true⟩ 2 rfl rfl rfl
  cases hfinish
  obtain ⟨t, hdeclared, hopen, hstarts⟩ := hresumes [.declare "y" none false] ⟨id, trivial⟩ (by simp) []
  exact ⟨hreachable, hunusable, hback (by simp) _ rfl, t, hdeclared, hopen, hstarts [] (by simp)⟩

end Symbols

end LineScript
