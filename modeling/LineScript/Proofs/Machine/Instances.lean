/-
# Objects of a class

The statement `object N from C` takes the object that `N` still holds from an earlier pass, or else it makes a new one
(`Obtains`).  A new object is one of the class `C`, which must be declared.  A kept object is taken as it is: neither
its class nor `C` is looked at, since only making an object looks for the class.

* `ends_runObject`: what an `object` statement that succeeds has done;
* `Obtains.givesInstance_iff`: whether the object is what the statement asks for (`GivesInstance`), for both kinds.

Main statement: the statement gives an object of its class when `N` has kept no value, and when it has kept an object of
a class `C` that the pass declares, and in no other case (`object_statement_gives_instance_iff`).
-/
import LineScript.Proofs.Machine.Keywords
import LineScript.Proofs.Objects.Properties

namespace LineScript

open Act

namespace Symbols

variable {s s' : Symbols} {name : String} {v : Value}

/-- A declared variable has the value that it has kept, or else the one that it is declared with. -/
theorem value?_declare {isGlobal : Bool} (h : s.declare name (some v) isGlobal = .ok s') :
    s'.value? isGlobal name = some ((s.value? isGlobal name).getD v.normalized) := by
  obtain ⟨var, rfl, hentry⟩ := declare_entry h
  rw [value?, table_withTable, Catalog.find?_enter_self, Option.bind_some, value?]
  rcases hentry with ⟨hnone, rfl⟩ | ⟨held, hfound, -, -, rfl⟩
  · rw [hnone]
    rfl
  · rw [hfound, Option.bind_some]
    cases held.value <;> rfl

/-- Behind a declaration that succeeds, the object that the variable still holds is the value that it has kept. -/
theorem keptObject?_of_declare {initial : Option Value} (h : s.declare name initial false = .ok s') :
    Machine.keptObject? s name = (s.value? false name).bind Value.object? := by
  obtain ⟨var, -, hentry⟩ := declare_entry h
  rw [Machine.keptObject?, value?, table]
  rcases hentry with ⟨hnone, -⟩ | ⟨held, hfound, hpending, -⟩
  · have hlocal : s.locals.find? name = none := hnone
    rw [if_neg Bool.false_ne_true, hlocal]
    rfl
  · have hlocal : s.locals.find? name = some held := hfound
    rw [if_neg Bool.false_ne_true, hlocal]
    simp [hpending]

end Symbols

namespace Machine

variable {m k : Machine} {name className : String} {id : Nat}

/-! ## Object statements -/

/-- The object that an `object` statement comes to, and the objects behind it: the one that the variable still holds, or
a new one. -/
inductive Obtains (m : Machine) (name : String) (className : Option String) : Nat → Objects → Prop
  | kept {id : Nat} : keptObject? m.symbols name = some id → Obtains m name className id m.objects
  | made {id : Nat} {o : Objects} : keptObject? m.symbols name = none → m.objects.create className = .ok (id, o) →
      Obtains m name className id o

theorem ends_declareObject (name : String) (id : Nat) (m : Machine) :
    Ends (declareObject name id) m (fun step k => ∃ s, m.symbols.declare name (some (.object id)) false = .ok s ∧
      step = .following ∧ k = { m with symbols := s, openObject := some id }) fun _ _ => True := by
  refine ends_bind ((ends_onSymbols _ m).mono (fun _ _ h => h) fun _ _ _ => trivial) ?_
  rintro _ _ ⟨s, hs, rfl⟩
  exact ends_modify_bind (ends_pure ⟨s, hs, rfl, rfl⟩)

/-- **What an `object` statement that succeeds has done**: its variable is declared for the object that it has come to,
which the property lines behind it are for. -/
theorem ends_runObject (i : Invocation) (m : Machine) :
    Ends (runObject i) m (fun step k => ∃ name className id o s, i.text 0 = .ok name ∧
      classNamed i name = .ok className ∧ m.Obtains name className id o ∧
      m.symbols.declare name (some (.object id)) false = .ok s ∧ step = .following ∧
      k = { m with symbols := s, objects := o, openObject := some id }) fun _ _ => True := by
  refine Ends.of_apply_eq ?_ (runObject_apply i m)
  refine ends_ofExcept_bind (fun name hname => ?_) fun _ _ => trivial
  refine ends_ofExcept_bind (fun className hclass => ?_) fun _ _ => trivial
  cases hkept : keptObject? m.symbols name with
  | some id =>
    refine (ends_declareObject name id m).mono ?_ fun _ _ h => h
    rintro step k ⟨s, hs, rfl, rfl⟩
    exact ⟨name, className, id, m.objects, s, hname, hclass, .kept hkept, hs, rfl, rfl⟩
  | none =>
    refine ends_bind ((ends_createObject className m).mono (fun _ _ h => h) fun _ _ _ => trivial) ?_
    rintro id _ ⟨o, ho, rfl⟩
    refine (ends_declareObject name id _).mono ?_ fun _ _ h => h
    rintro step k ⟨s, hs, rfl, rfl⟩
    exact ⟨name, className, id, o, s, hname, hclass, .made hkept ho, hs, rfl, rfl⟩

/-! ## Instances -/

/-- A variable holds an object of a class that the pass declares, and what the object does not own reads as the
default of the class. -/
def GivesInstance (m : Machine) (name className : String) : Prop :=
  ∃ c id o, m.objects.class? className = some c ∧ m.symbols.value? false name = some (.object id) ∧
    m.objects.objects[id]? = some o ∧ o.className = some className ∧
    ∀ prop p, c.defaults.find? prop = some p → o.own.find? prop = none → m.objects.property id prop = .ok p.value

/-- What a variable has kept, if anything, is an object of a class that the pass declares. -/
def KeepsInstance (m : Machine) (name className : String) : Prop :=
  ∀ v, m.symbols.value? false name = some v →
    ∃ id o, v = .object id ∧ m.objects.objects[id]? = some o ∧ o.className = some className ∧
      (m.objects.class? className).isSome = true

theorem keepsInstance_iff : m.KeepsInstance name className ↔
    (m.symbols.value? false name).all (fun v => (v.object?.bind (m.objects.objects[·]?)).any
      (·.className == some className) && (m.objects.class? className).isSome) = true := by
  unfold KeepsInstance
  cases m.symbols.value? false name with
  | none => simp
  | some v =>
    rw [Option.all_some, Bool.and_eq_true, Option.any_eq_true]
    constructor
    · intro hkeeps
      obtain ⟨id, o, rfl, ho, hclass, hdeclared⟩ := hkeeps v rfl
      exact ⟨⟨o, ho, by rw [hclass, beq_self_eq_true]⟩, hdeclared⟩
    · rintro ⟨⟨o, ho, hclass⟩, hdeclared⟩ _ ⟨⟩
      obtain ⟨id, hid, ho⟩ := Option.bind_eq_some_iff.mp ho
      exact ⟨id, o, Value.object?_eq_some.mp hid, ho, beq_iff_eq.mp hclass, hdeclared⟩

instance : Decidable (m.KeepsInstance name className) := decidable_of_iff _ keepsInstance_iff.symm

end Machine

namespace Objects

variable {s s' : Objects} {id : Nat} {prop className : String}

/-- What an object of a class does not own reads as the default of the class. -/
theorem property_of_default {o : Object} {c : ObjectClass} {p : Property} (ho : s.objects[id]? = some o)
    (hclass : o.className = some className) (hc : s.class? className = some c)
    (hdefault : c.defaults.find? prop = some p) (hown : o.own.find? prop = none) :
    s.property id prop = .ok p.value := by
  obtain ⟨hfound, -⟩ := Option.filter_eq_some_iff.mp hc
  have hshown : s.shown? o prop = some p :=
    (shown?_of_not_own hown).trans (classDefault?_eq_some.mpr ⟨className, c, hclass, hfound, hdefault⟩)
  exact property_eq_ok.mpr ⟨o, p, ho, hshown, rfl⟩

/-- Objects are made of classes that the pass declares. -/
theorem exists_class_of_create (h : s.create (some className) = .ok (id, s')) :
    ∃ c, s.class? className = some c := by
  cases hc : s.class? className with
  | some c => exact ⟨c, rfl⟩
  | none =>
    rw [create, Option.filter_some, hc] at h
    cases h

end Objects

namespace Machine

variable {m k : Machine} {name className : String} {id : Nat} {o : Objects} {s : Symbols}

/-- A kept object is what is asked for when it was before. -/
theorem givesInstance_iff_of_kept (hvalue : m.symbols.value? false name = some (.object id))
    (hvalue' : k.symbols.value? false name = some (.object id)) (hobjects : k.objects = m.objects) :
    k.GivesInstance name className ↔ m.KeepsInstance name className := by
  rw [GivesInstance, KeepsInstance, hvalue, hvalue', hobjects]
  constructor
  · rintro ⟨c, id', o, hc, hid, ho, hclass, -⟩ v hv
    cases hid
    cases hv
    exact ⟨id, o, rfl, ho, hclass, by rw [hc]; rfl⟩
  · intro hkeeps
    obtain ⟨id', o, hid, ho, hclass, hdeclared⟩ := hkeeps _ rfl
    cases hid
    obtain ⟨c, hc⟩ := Option.isSome_iff_exists.mp hdeclared
    exact ⟨c, id, o, hc, rfl, ho, hclass, fun prop p hp hown => Objects.property_of_default ho hclass hc hp hown⟩

/-- A new object is what is asked for. -/
theorem givesInstance_of_made (hmade : m.objects.create (some className) = .ok (id, o))
    (hvalue : k.symbols.value? false name = some (.object id)) (hobjects : k.objects = o) :
    k.GivesInstance name className := by
  obtain ⟨c, hc⟩ := Objects.exists_class_of_create hmade
  obtain ⟨rfl, rfl⟩ := Objects.create_eq_ok hmade
  have ho : k.objects.objects[m.objects.objects.size]? = some ⟨some className, {}⟩ := by
    rw [hobjects]
    exact Array.getElem?_push_size
  have hc' : k.objects.class? className = some c := by
    rw [hobjects]
    exact hc
  exact ⟨c, _, _, hc', hvalue, ho, rfl, fun prop p hp hown => Objects.property_of_default ho rfl hc' hp hown⟩

/-- **A declared object is an instance exactly when what its variable has kept is one.** -/
theorem Obtains.givesInstance_iff (h : m.Obtains name (some className) id o)
    (hdeclare : m.symbols.declare name (some (.object id)) false = .ok s) (hsymbols : k.symbols = s)
    (hobjects : k.objects = o) : k.GivesInstance name className ↔ m.KeepsInstance name className := by
  have hkept := Symbols.keptObject?_of_declare hdeclare
  have hvalue := Symbols.value?_declare hdeclare
  rw [← hsymbols] at hvalue
  cases h with
  | kept hid =>
    rw [hkept] at hid
    obtain ⟨v, hv, hobject⟩ := Option.bind_eq_some_iff.mp hid
    obtain rfl := Value.object?_eq_some.mp hobject
    rw [hv] at hvalue
    exact givesInstance_iff_of_kept hv hvalue hobjects
  | made hnone hmade =>
    rw [hkept] at hnone
    cases hv : m.symbols.value? false name with
    | none =>
      rw [hv] at hvalue
      refine iff_of_true (givesInstance_of_made hmade hvalue hobjects) ?_
      intro v hheld
      rw [hv] at hheld
      cases hheld
    | some v =>
      -- What has been kept stays the value, and it is no object.
      rw [hv] at hvalue hnone
      refine iff_of_false ?_ fun hkeeps => ?_
      · rintro ⟨c, id', o', -, hheld, -⟩
        rw [hvalue] at hheld
        cases hheld
        cases hnone
      · obtain ⟨id', o', rfl, -⟩ := hkeeps v hv
        cases hnone

/-! ## Statements of a line -/

@[simp] theorem leaveContext_objects (keyword : String) (depth : Nat) (m : Machine) :
    (m.leaveContext keyword depth).objects = m.objects := by
  unfold leaveContext
  split_ifs <;> rfl

/-- The arguments of a statement that names a class. -/
theorem classNamed_of_texts {i : Invocation} {separator : String}
    (h : i.args.map (·.text) = [name, separator, className]) :
    i.text 0 = .ok name ∧ ∀ variableName, classNamed i variableName = .ok (some className) := by
  obtain ⟨a, b, c, hargs⟩ : ∃ a b c, i.args = [a, b, c] := List.length_eq_three.mp (by
    rw [← List.length_map (·.text), h]
    rfl)
  rw [hargs] at h
  cases h
  refine ⟨by rw [Invocation.text, Invocation.text?, hargs]; rfl, fun variableName => ?_⟩
  rw [classNamed, Invocation.text?, Invocation.text?, hargs]
  rfl

/-- **What `object N from C` gives.**  Let a machine without extensions execute a line, of the script or of the host,
and let the line come to the statement `object N from C`, at any depth of nested code.  When the statement succeeds, `C`
is a class that the pass declares, `N` holds an object of this class, and each property of `C` that the object does not
own reads as the default, in exactly these cases:

* `N` has kept no value from an earlier pass, so that a new object was made;
* `N` has kept an object of the class `C`, and the pass declares `C`. -/
theorem object_statement_gives_instance_iff (hm : m.Reachable) (executing : Option Nat) {tokens : List Token} {r : Row}
    (hr : r ∈ (m.withExecuting executing).lineRows tokens) (hkeyword : r.statement.keyword.text = "object")
    (hargs : r.statement.args.map (·.text) = [name, "from", className]) {next : Next}
    (hok : r.dispatch (invoke m.nesting) = (.ok next, k)) :
    k.GivesInstance name className ↔ m.KeepsInstance name className := by
  have hplain : (m.withExecuting executing).Plain := ⟨hm.plain.keywords, hm.plain.coherent, hm.plain.nonempty⟩
  obtain ⟨hrow, -⟩ := hplain.of_mem_rows (Nat.zero_le _) hr
  obtain ⟨-, cs, hmachine⟩ := reached_of_mem_rows hr
  obtain ⟨k', hrun, -, rfl⟩ :=
    hrow.dispatch_builtin_eq_ok (b := .newObject) (by rw [hkeyword]; rfl) (by rw [hkeyword]; rfl) hok
  obtain ⟨name', className', id, o, s, hname, hclass, hobtains, hdeclare, -, rfl⟩ := (ends_runObject _ _).of_ok hrun
  obtain ⟨hname', hclass'⟩ := classNamed_of_texts (i := r.machine.invocation r.statement) hargs
  cases hname.symm.trans hname'
  cases hclass.symm.trans (hclass' name)
  have hiff : (leaveContext r.statement.keyword.text r.depth { r.machine with
      symbols := s, objects := o, openObject := some id }).GivesInstance name className ↔
        r.machine.KeepsInstance name className :=
    hobtains.givesInstance_iff hdeclare (leaveContext_symbols _ _ _) (leaveContext_objects _ _ _)
  rw [hiff, hmachine]
  rfl

/-- A script whose second pass comes to an object of its class with the object of the first pass. -/
def beforeInstance : Machine :=
  ((started "class C\n| p 1\nobject a from C\nnon-destructive restart").stretch 6).last

/-- A script whose second pass goes another way, and names a class that no pass declares. -/
def beforeGhost : Machine :=
  ((started "var n 0\nif \\n\\ = 1 jump 6\nobject a\nset n 1\nnon-destructive restart\nobject a from Ghost").stretch
    7).last

/-- What can be checked of an `object` statement with a class: it succeeds, and `p` holds of where that leads. -/
def givesObject (inv : Invoke) (name className : String) (p : Machine → Bool) (r : Row) : Bool :=
  r.statement.keyword.text == "object" && r.statement.args.map (·.text) == [name, "from", className] &&
    (r.dispatch inv).1.isOk && p (r.dispatch inv).2

/-- Of the rows of a line, one has been checked. -/
theorem exists_row_of_givesObject {tokens : List Token} {inv : Invoke} {p : Machine → Bool}
    (h : (m.lineRows tokens).any (givesObject inv name className p) = true) :
    ∃ r next k, r ∈ m.lineRows tokens ∧ r.statement.keyword.text = "object" ∧
      r.statement.args.map (·.text) = [name, "from", className] ∧ r.dispatch inv = (.ok next, k) ∧ p k = true := by
  obtain ⟨r, hr, hchecks⟩ := List.any_eq_true.mp h
  simp only [givesObject, Bool.and_eq_true, beq_iff_eq] at hchecks
  obtain ⟨⟨⟨hkeyword, hargs⟩, hok⟩, hp⟩ := hchecks
  obtain ⟨next, hdispatch⟩ := ends_of_isOk hok
  exact ⟨r, next, _, hr, hkeyword, hargs, hdispatch, hp⟩

/-- An object that has been kept from the first pass is one of its class in the second. -/
theorem object_statement_gives_instance_of_kept :
    ∃ r next k, beforeInstance.Reachable ∧
      r ∈ (beforeInstance.withExecuting (some 2)).lineRows (["object", "a", "from", "C"].map (wordToken [])) ∧
      r.statement.args.map (·.text) = ["a", "from", "C"] ∧
      r.dispatch (invoke beforeInstance.nesting) = (.ok next, k) ∧ k.GivesInstance "a" "C" := by
  have hm : beforeInstance.Reachable := (started_reachable _).stretch 6
  have hrow : ((beforeInstance.withExecuting (some 2)).lineRows (["object", "a", "from", "C"].map (wordToken []))).any
      (givesObject (invoke beforeInstance.nesting) "a" "C" fun _ => true) = true := by
    decide +kernel
  have hkept : beforeInstance.KeepsInstance "a" "C" := by decide +kernel
  obtain ⟨r, next, k, hr, hkeyword, hargs, hok, -⟩ := exists_row_of_givesObject hrow
  exact ⟨r, next, k, hm, hr, hargs, hok,
    (object_statement_gives_instance_iff hm (some 2) hr hkeyword hargs hok).mpr hkept⟩

/-- **A kept object is no instance of a class that no pass declares**, and yet the statement succeeds. -/
theorem object_statement_gives_no_instance :
    ∃ r next k, beforeGhost.Reachable ∧ beforeGhost.script.lines[beforeGhost.cursor]? = some "object a from Ghost" ∧
      r ∈ (beforeGhost.withExecuting (some 5)).lineRows (["object", "a", "from", "Ghost"].map (wordToken [])) ∧
      r.statement.keyword.text = "object" ∧ r.statement.args.map (·.text) = ["a", "from", "Ghost"] ∧
      r.dispatch (invoke beforeGhost.nesting) = (.ok next, k) ∧ k.objects.class? "Ghost" = none ∧
      ¬ k.GivesInstance "a" "Ghost" := by
  have hrow : ((beforeGhost.withExecuting (some 5)).lineRows (["object", "a", "from", "Ghost"].map (wordToken []))).any
      (givesObject (invoke beforeGhost.nesting) "a" "Ghost" fun k => (k.objects.class? "Ghost").isNone) = true := by
    decide +kernel
  obtain ⟨r, next, k, hr, hkeyword, hargs, hok, hghost⟩ := exists_row_of_givesObject hrow
  have hnone : k.objects.class? "Ghost" = none := Option.isNone_iff_eq_none.mp hghost
  refine ⟨r, next, k, (started_reachable _).stretch 7, by decide +kernel, hr, hkeyword, hargs, hok, hnone, ?_⟩
  rintro ⟨c, id, o, hc, -⟩
  rw [hnone] at hc
  cases hc

end Machine

end LineScript
