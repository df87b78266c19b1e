/-
# The type discipline

A variable takes on the tag of its first value, and values are stored in their stored form.  Both hold over whole
histories of a store, passes included.

* `Holds.of_perform`: an operation stores nothing but the stored forms of the values that it is given;
* `HoldsTag.perform`: an operation leaves a variable with its value, or with another one of the same tag, unless it
  clears the store or provides the variable from outside.

Main statement: over every history values keep their tags and are stored in their stored form
(`histories_keep_tags`).
-/
import LineScript.Proofs.Symbols.Invariant

namespace LineScript

/-! ## Parts of values -/

/-- A value is the other one, or stands in one of its groups at some depth. -/
inductive Value.Part (u : Value) : Value → Prop
  | self : Part u u
  | element {v : Value} {items : List Value} : v ∈ items → Part u v → Part u (.group items)

/-- What stands in a value in stored form is in stored form itself. -/
theorem Value.Part.normalized_eq {u v : Value} (h : u.Part v) (hv : v.normalized = v) :
    u.normalized = u := by
  induction h with
  | self => exact hv
  | @element v items hmem _ ih =>
    rw [normalized_group, normalizedAll_eq_map] at hv
    have hall : ∀ item ∈ items, item.normalized = item := by
      have hsame : items.map normalized = items.map id := by
        rw [List.map_id]
        exact Value.group.inj hv
      exact List.map_inj_left.mp hsame
    exact ih (hall v hmem)

namespace Symbols

variable {s s' : Symbols} {name : String} {isGlobal : Bool} {v : Value}

/-! ## Tables -/

@[simp] theorem table_withTable (s : Symbols) (isGlobal : Bool) (t : Catalog Variable) :
    (s.withTable isGlobal t).table isGlobal = t := by
  cases isGlobal <;> rfl

@[simp] theorem table_withTable_not (s : Symbols) (isGlobal : Bool) (t : Catalog Variable) :
    (s.withTable (!isGlobal) t).table isGlobal = s.table isGlobal := by
  cases isGlobal <;> rfl

@[simp] theorem calls_withTable (s : Symbols) (isGlobal : Bool) (t : Catalog Variable) :
    (s.withTable isGlobal t).calls = s.calls := by
  cases isGlobal <;> rfl

@[simp] theorem iteration_withTable (s : Symbols) (isGlobal : Bool) (t : Catalog Variable) :
    (s.withTable isGlobal t).iteration = s.iteration := by
  cases isGlobal <;> rfl

/-- A table is the one that is set, or it is left alone. -/
theorem table_withTable_cases (s : Symbols) (isGlobal other : Bool) (t : Catalog Variable) :
    (other = isGlobal ∧ (s.withTable isGlobal t).table other = t) ∨
      (other ≠ isGlobal ∧ (s.withTable isGlobal t).table other = s.table other) := by
  by_cases h : other = isGlobal
  · rw [h]
    exact Or.inl ⟨rfl, table_withTable s isGlobal t⟩
  · obtain rfl : isGlobal = !other := Bool.eq_not_of_ne (Ne.symm h)
    exact Or.inr ⟨h, table_withTable_not s other t⟩

/-! ## Values in a store -/

/-- A value stands in a variable, among the arguments of a call, or among the items of the iteration. -/
inductive Holds (s : Symbols) (v : Value) : Prop
  | variable (isGlobal : Bool) {name : String} {var : Variable} :
      (name, var) ∈ (s.table isGlobal).table.entries → var.value = some v → Holds s v
  | argument {frame : Frame} : frame ∈ s.calls → v ∈ frame.arguments → Holds s v
  | item {it : Iteration} : s.iteration = some it → v ∈ it.items → Holds s v

/-- The values that an operation is given. -/
def Command.values : Command → List Value
  | .declare _ initial _ => initial.toList
  | .assign _ value _ | .provide _ value => [value]
  | .call _ args _ => args
  | .iterate _ items _ => items
  | .declareFunction .. | .finishDeclaration _ | .finishCall _ | .resetPass | .clear => []

/-- A value is the stored form of one that an operation is given. -/
def Command.Stores (c : Command) (v : Value) : Prop := ∃ u ∈ c.values, u.normalized = v

/-- What an entered variable adds is its value. -/
theorem Holds.of_enter {var : Variable}
    (h : (s.withTable isGlobal ((s.table isGlobal).enter name var)).Holds v) :
    s.Holds v ∨ var.value = some v := by
  cases h with
  | @«variable» other n held hmem hvalue =>
    rcases table_withTable_cases s isGlobal other ((s.table isGlobal).enter name var) with
      ⟨rfl, htable⟩ | ⟨-, htable⟩
    · rw [htable] at hmem
      rcases Roster.mem_enter hmem with hold | hnew
      · exact Or.inl (.variable _ hold hvalue)
      · cases hnew
        exact Or.inr hvalue
    · rw [htable] at hmem
      exact Or.inl (.variable _ hmem hvalue)
  | argument hframe harg =>
    rw [calls_withTable] at hframe
    exact Or.inl (.argument hframe harg)
  | item hit hitem =>
    rw [iteration_withTable] at hit
    exact Or.inl (.item hit hitem)

/-- Where variables are left alone, only calls and the iteration can hold something else. -/
theorem Holds.of_calls {p : Prop} (h : s'.Holds v) (hlocals : s'.locals = s.locals)
    (hglobals : s'.globals = s.globals)
    (hcalls : ∀ frame ∈ s'.calls, v ∈ frame.arguments → s.Holds v ∨ p)
    (hitems : ∀ it, s'.iteration = some it → v ∈ it.items → s.Holds v ∨ p) : s.Holds v ∨ p := by
  cases h with
  | @«variable» isGlobal name var hmem hvalue =>
    have htable : s'.table isGlobal = s.table isGlobal := by
      rw [table, table, hlocals, hglobals]
    rw [htable] at hmem
    exact Or.inl (.variable _ hmem hvalue)
  | argument hframe harg => exact hcalls _ hframe harg
  | item hit hitem => exact hitems _ hit hitem

/-- Functions hold no values. -/
theorem Holds.of_functions (h : s'.Holds v) (hlocals : s'.locals = s.locals)
    (hglobals : s'.globals = s.globals) (hcalls : s'.calls = s.calls)
    (hiteration : s'.iteration = s.iteration) : s.Holds v := by
  have hheld : s.Holds v ∨ False := h.of_calls hlocals hglobals
    (fun frame hframe harg => Or.inl (.argument (hcalls ▸ hframe) harg))
    (fun it hit hitem => Or.inl (.item (hiteration ▸ hit) hitem))
  exact hheld.resolve_right not_false

theorem Holds.of_declare {initial : Option Value} (hok : s.declare name initial isGlobal = .ok s')
    (h : s'.Holds v) : s.Holds v ∨ initial.map Value.normalized = some v := by
  obtain ⟨var, rfl, hentry⟩ := declare_entry hok
  rcases h.of_enter with hold | hvalue
  · exact Or.inl hold
  rcases hentry with ⟨-, rfl⟩ | ⟨before, hfound, -, -, rfl⟩
  · exact Or.inr hvalue
  · cases hheld : before.value with
    | none =>
      rw [hheld] at hvalue
      exact Or.inr hvalue
    | some held =>
      rw [hheld] at hvalue
      exact Or.inl (.variable _ (Roster.mem_of_find? hfound) (hheld.trans hvalue))

theorem Holds.of_declareFunction {params : List Parameter} {line : Nat} {d : Declared}
    (hok : s.declareFunction name params line = .ok (d, s')) (h : s'.Holds v) : s.Holds v := by
  obtain ⟨-, ⟨-, rfl⟩ | ⟨f, finish, -, -, -, -, rfl⟩⟩ := declareFunction_eq_ok hok
  · exact h.of_functions rfl rfl rfl rfl
  · exact h.of_functions rfl rfl rfl rfl

theorem Holds.of_finishDeclaration {line : Nat} (h : (s.finishDeclaration line).Holds v) : s.Holds v := by
  unfold finishDeclaration at h
  split at h
  · exact h
  · exact h.of_functions rfl rfl rfl rfl

theorem Holds.of_call {args : List Value} {line start : Nat}
    (hok : s.call name args line = .ok (start, s')) (h : s'.Holds v) :
    s.Holds v ∨ ∃ u ∈ args, u.normalized = v := by
  obtain ⟨frame, rfl, harguments⟩ := call_arguments hok
  refine h.of_calls rfl rfl (fun frame' hframe harg => ?_) fun it hit hitem => Or.inl (.item hit hitem)
  rcases List.mem_cons.mp hframe with rfl | hold
  · rw [harguments] at harg
    exact Or.inr (List.mem_map.mp harg)
  · exact Or.inl (.argument hold harg)

theorem Holds.of_iterate {items : List Value} {line : Nat} {start : Option Nat}
    (hok : s.iterate name items line = .ok (start, s')) (h : s'.Holds v) :
    s.Holds v ∨ ∃ u ∈ items, u.normalized = v := by
  cases start with
  | none =>
    rw [iterate_eq_ok_none hok] at h
    exact Or.inl h
  | some start =>
    obtain ⟨-, f, p, first, rest, -, -, -, hitems, -, -, rfl⟩ := iterate_eq_ok hok
    refine h.of_calls rfl rfl (fun frame hframe harg => ?_) fun it hit hitem => ?_
    · rcases List.mem_cons.mp hframe with rfl | hold
      · obtain rfl : v = first := List.mem_singleton.mp harg
        exact Or.inr (List.mem_map.mp (hitems ▸ List.mem_cons_self))
      · exact Or.inl (.argument hold harg)
    · cases hit
      exact Or.inr (List.mem_map.mp hitem)

/-- A return binds at most the next item of the iteration. -/
theorem Holds.of_finishCall {reply : Returned} (hok : s.finishCall name = .ok (reply, s'))
    (h : s'.Holds v) : s.Holds v := by
  obtain ⟨f, -, ⟨-, rfl, -⟩ | ⟨frame, outer, hcalls, -, hcase⟩⟩ := finishCall_eq_ok hok
  · exact h
  have houter : ∀ frame' ∈ outer, v ∈ frame'.arguments → s.Holds v := fun frame' hframe harg =>
    .argument (hcalls ▸ List.mem_cons_of_mem frame hframe) harg
  have hheld : s.Holds v ∨ False := by
    rcases hcase with ⟨-, -, rfl⟩ | ⟨it, hround, ⟨item, p, hitem, -, -, rfl⟩ | ⟨-, -, rfl⟩⟩
    · exact h.of_calls rfl rfl (fun frame' hframe harg => Or.inl (houter frame' hframe harg))
        fun it hit hitem => Or.inl (.item hit hitem)
    · obtain ⟨hit, -, -⟩ := endingRound?_eq_some.mp hround
      refine h.of_calls rfl rfl (fun frame' hframe harg => Or.inl ?_) fun it' hit' hitem' => Or.inl ?_
      · rcases List.mem_cons.mp hframe with rfl | hold
        · obtain rfl : v = item := List.mem_singleton.mp harg
          exact .item hit (List.mem_of_getElem? hitem)
        · exact houter frame' hold harg
      · cases hit'
        exact .item hit hitem'
    · exact h.of_calls rfl rfl (fun frame' hframe harg => Or.inl (houter frame' hframe harg))
        fun it hit => by cases hit
  exact hheld.resolve_right not_false

theorem Holds.of_resetPass (h : s.resetPass.Holds v) : s.Holds v := by
  cases h with
  | @«variable» isGlobal name var hmem hvalue =>
    cases isGlobal with
    | false =>
      obtain ⟨⟨n, before⟩, hbefore, hsame⟩ := List.mem_map.mp hmem
      cases hsame
      exact .variable false hbefore hvalue
    | true =>
      obtain ⟨⟨n, before⟩, hbefore, hsame⟩ := List.mem_map.mp hmem
      cases hsame
      exact .variable true hbefore hvalue
  | argument hframe harg => cases hframe
  | item hit hitem => cases hit

theorem Holds.of_clear (h : s.clear.Holds v) :
    ∃ name var, (name, var) ∈ s.globals.table.entries ∧ var.hostOwned = true ∧ var.value = some v := by
  cases h with
  | @«variable» isGlobal name var hmem hvalue =>
    cases isGlobal with
    | false => cases hmem
    | true =>
      obtain ⟨hbefore, howned⟩ := List.mem_filter.mp hmem
      exact ⟨name, var, hbefore, howned, hvalue⟩
  | argument hframe harg => cases hframe
  | item hit hitem => cases hit

/-- **An operation stores nothing but the stored forms of the values that it is given.** -/
theorem Holds.of_perform {c : Command} (h : (s.perform c).2.Holds v) : s.Holds v ∨ c.Stores v := by
  revert h
  cases c with
  | declare name initial isGlobal =>
    refine settle_keeps (P := fun s' => s'.Holds v → _) Or.inl _ fun s' hok h => ?_
    refine (Holds.of_declare hok h).imp_right fun hinitial => ?_
    obtain ⟨given, rfl, hnormal⟩ := Option.map_eq_some_iff.mp hinitial
    exact ⟨given, List.mem_singleton_self _, hnormal⟩
  | assign name value isGlobal =>
    refine settle_keeps (P := fun s' => s'.Holds v → _) Or.inl _ fun s' hok h => ?_
    obtain ⟨var, -, -, -, rfl⟩ := assign_entry hok
    exact h.of_enter.imp_right fun hvalue => ⟨value, List.mem_singleton_self _, Option.some.inj hvalue⟩
  | provide name value =>
    intro h
    have hentered : (s.withTable true ((s.table true).enter name ⟨some value.normalized, true, true⟩)).Holds v := h
    exact hentered.of_enter.imp_right fun hvalue => ⟨value, List.mem_singleton_self _, Option.some.inj hvalue⟩
  | declareFunction name params line =>
    exact settle_keeps (P := fun s' => s'.Holds v → _) Or.inl _ fun _ hok h =>
      Or.inl (Holds.of_declareFunction hok h)
  | finishDeclaration line => exact fun h => Or.inl (Holds.of_finishDeclaration h)
  | call name args line =>
    exact settle_keeps (P := fun s' => s'.Holds v → _) Or.inl _ fun _ hok h => Holds.of_call hok h
  | finishCall name =>
    exact settle_keeps (P := fun s' => s'.Holds v → _) Or.inl _ fun _ hok h =>
      Or.inl (Holds.of_finishCall hok h)
  | iterate name items line =>
    exact settle_keeps (P := fun s' => s'.Holds v → _) Or.inl _ fun _ hok h => Holds.of_iterate hok h
  | resetPass => exact fun h => Or.inl (Holds.of_resetPass h)
  | clear =>
    intro h
    obtain ⟨name, var, hmem, -, hvalue⟩ := Holds.of_clear h
    exact Or.inl (.variable true hmem hvalue)

/-! ## Tags over histories -/

/-- The value of a variable. -/
def value? (s : Symbols) (isGlobal : Bool) (name : String) : Option Value :=
  ((s.table isGlobal).find? name).bind (·.value)

/-- An operation may give a variable a value of any tag, or drop it. -/
def Command.Rebinds (isGlobal : Bool) (name : String) : Command → Prop
  | .provide other _ => isGlobal = true ∧ other = name
  | .clear => True
  | _ => False

/-- A variable holds a value of some tag. -/
def HoldsTag (s : Symbols) (isGlobal : Bool) (name : String) (tag : Tag) : Prop :=
  ∃ v, s.value? isGlobal name = some v ∧ v.tag = tag

theorem value?_eq_some : s.value? isGlobal name = some v ↔
    ∃ var, (s.table isGlobal).find? name = some var ∧ var.value = some v :=
  Option.bind_eq_some_iff

/-- An entered variable matters only to variables of its own scope and name. -/
theorem HoldsTag.enter {tag : Tag} {isGlobal' : Bool} {name' : String} {var : Variable}
    (h : s.HoldsTag isGlobal name tag)
    (hvar : isGlobal = isGlobal' → name = name' → ∃ v, var.value = some v ∧ v.tag = tag) :
    (s.withTable isGlobal' ((s.table isGlobal').enter name' var)).HoldsTag isGlobal name tag := by
  unfold HoldsTag value?
  rcases table_withTable_cases s isGlobal' isGlobal ((s.table isGlobal').enter name' var) with
    ⟨rfl, htable⟩ | ⟨-, htable⟩
  · rw [htable]
    by_cases hname : name = name'
    · rw [hname, Catalog.find?_enter_self]
      exact hvar rfl hname
    · rw [Catalog.find?_enter_of_ne _ hname]
      exact h
  · rw [htable]
    exact h

/-- Where variables are left alone, they keep their values. -/
theorem HoldsTag.of_variables {tag : Tag} (h : s.HoldsTag isGlobal name tag)
    (hlocals : s'.locals = s.locals) (hglobals : s'.globals = s.globals) :
    s'.HoldsTag isGlobal name tag := by
  have htable : s'.table isGlobal = s.table isGlobal := by
    rw [table, table, hlocals, hglobals]
  unfold HoldsTag value?
  rw [htable]
  exact h

/-- The end of a pass keeps values. -/
theorem value?_resetPass (s : Symbols) (isGlobal : Bool) (name : String) :
    s.resetPass.value? isGlobal name = s.value? isGlobal name := by
  cases isGlobal with
  | false =>
    show ((s.locals.map _).find? name).bind _ = (s.locals.find? name).bind _
    rw [Catalog.find?_map]
    cases s.locals.find? name <;> rfl
  | true =>
    show ((s.globals.map _).find? name).bind _ = (s.globals.find? name).bind _
    rw [Catalog.find?_map]
    cases s.globals.find? name <;> rfl

/-- Does an operation leave all variables alone? -/
def Command.sparesVariables : Command → Bool
  | .declareFunction .. | .finishDeclaration _ | .call .. | .finishCall _ | .iterate .. => true
  | .declare .. | .assign .. | .provide .. | .resetPass | .clear => false

/-- Operations on functions and calls leave variables alone. -/
theorem variables_perform (s : Symbols) {c : Command} (hc : c.sparesVariables = true) :
    (s.perform c).2.locals = s.locals ∧ (s.perform c).2.globals = s.globals := by
  have hkept : s.locals = s.locals ∧ s.globals = s.globals := ⟨rfl, rfl⟩
  cases c with
  | declareFunction name params line =>
    refine settle_keeps (P := fun s' => s'.locals = s.locals ∧ s'.globals = s.globals) hkept _
      fun (d, s') hok => ?_
    obtain ⟨-, ⟨-, rfl⟩ | ⟨f, finish, -, -, -, -, rfl⟩⟩ := declareFunction_eq_ok hok <;> exact hkept
  | finishDeclaration line =>
    show (s.finishDeclaration line).locals = s.locals ∧ (s.finishDeclaration line).globals = s.globals
    unfold finishDeclaration
    split <;> exact hkept
  | call name args line =>
    refine settle_keeps (P := fun s' => s'.locals = s.locals ∧ s'.globals = s.globals) hkept _
      fun (start, s') hok => ?_
    obtain ⟨frame, rfl, -⟩ := call_arguments hok
    exact hkept
  | finishCall name =>
    refine settle_keeps (P := fun s' => s'.locals = s.locals ∧ s'.globals = s.globals) hkept _
      fun (r, s') hok => ?_
    obtain ⟨f, -, ⟨-, rfl, -⟩ | ⟨frame, outer, -, -, hcase⟩⟩ := finishCall_eq_ok hok
    · exact hkept
    rcases hcase with ⟨-, -, rfl⟩ | ⟨it, -, ⟨item, p, -, -, -, rfl⟩ | ⟨-, -, rfl⟩⟩ <;> exact hkept
  | iterate name items line =>
    refine settle_keeps (P := fun s' => s'.locals = s.locals ∧ s'.globals = s.globals) hkept _
      fun (start, s') hok => ?_
    cases start with
    | none =>
      rw [iterate_eq_ok_none hok]
      exact hkept
    | some start =>
      obtain ⟨-, f, p, first, rest, -, -, -, -, -, -, rfl⟩ := iterate_eq_ok hok
      exact hkept
  | declare | assign | provide | resetPass | clear => cases hc

/-- **Operations keep the tag of a variable**, unless they clear the store or provide the variable from outside. -/
theorem HoldsTag.perform {tag : Tag} {c : Command} (h : s.HoldsTag isGlobal name tag)
    (hc : ¬ c.Rebinds isGlobal name) : (s.perform c).2.HoldsTag isGlobal name tag := by
  by_cases hspares : c.sparesVariables = true
  · obtain ⟨hlocals, hglobals⟩ := variables_perform s hspares
    exact h.of_variables hlocals hglobals
  cases c with
  | declare name' initial isGlobal' =>
    refine settle_keeps (P := fun s' => s'.HoldsTag isGlobal name tag) h _ fun s' hok => ?_
    obtain ⟨var, rfl, hentry⟩ := declare_entry hok
    refine h.enter ?_
    rintro rfl rfl
    obtain ⟨v, hvalue, htag⟩ := h
    obtain ⟨before, hfound, hheld⟩ := value?_eq_some.mp hvalue
    rcases hentry with ⟨hnone, -⟩ | ⟨before', hfound', -, -, rfl⟩
    · rw [hfound] at hnone
      cases hnone
    · obtain rfl : before = before' := Option.some.inj (hfound.symm.trans hfound')
      exact ⟨v, by rw [hheld]; rfl, htag⟩
  | assign name' value isGlobal' =>
    refine settle_keeps (P := fun s' => s'.HoldsTag isGlobal name tag) h _ fun s' hok => ?_
    obtain ⟨before', hfound', -, hsame, rfl⟩ := assign_entry hok
    refine h.enter ?_
    rintro rfl rfl
    obtain ⟨v, hvalue, htag⟩ := h
    obtain ⟨before, hfound, hheld⟩ := value?_eq_some.mp hvalue
    obtain rfl : before = before' := Option.some.inj (hfound.symm.trans hfound')
    exact ⟨value.normalized, rfl, (hsame v hheld).symm.trans htag⟩
  | provide name' value =>
    have hentered : (s.withTable true ((s.table true).enter name' ⟨some value.normalized, true, true⟩)).HoldsTag
        isGlobal name tag := by
      refine h.enter ?_
      rintro rfl rfl
      exact absurd ⟨rfl, rfl⟩ hc
    exact hentered
  | declareFunction | finishDeclaration | call | finishCall | iterate => exact absurd rfl hspares
  | resetPass =>
    obtain ⟨v, hvalue, htag⟩ := h
    exact ⟨v, by rw [← hvalue]; exact value?_resetPass s isGlobal name, htag⟩
  | clear => exact absurd trivial hc

/-- A variable keeps its tag over any operations that neither clear the store nor provide it from outside. -/
theorem HoldsTag.performAll {tag : Tag} {cs : List Command} (h : s.HoldsTag isGlobal name tag)
    (hcs : ∀ c ∈ cs, ¬ c.Rebinds isGlobal name) : (s.performAll cs).HoldsTag isGlobal name tag := by
  induction cs generalizing s with
  | nil => exact h
  | cons c rest ih =>
    exact ih (h.perform (hcs c List.mem_cons_self)) fun c' hc' => hcs c' (List.mem_cons_of_mem c hc')

/-- Values are stored in their stored form. -/
theorem Reachable.normalized_eq (h : Reachable s) (hv : s.Holds v) : v.normalized = v := by
  induction h generalizing v with
  | empty =>
    cases hv with
    | @«variable» isGlobal name var hmem hvalue => cases isGlobal <;> cases hmem
    | argument hframe harg => cases hframe
    | item hit hitem => cases hit
  | step c _ ih =>
    rcases hv.of_perform with hold | ⟨u, -, rfl⟩
    · exact ih hold
    · exact Value.normalized_normalized u

/-- **The type discipline.**  Whatever operations have led to a store:

* a variable that has a value keeps one, and keeps its tag, over all further operations that do not clear the store
  and, if the variable is global, do not provide it from outside;
* all values in variables, calls and the iteration are in stored form, and so is what stands in their groups. -/
theorem histories_keep_tags (h : Reachable s) :
    (∀ isGlobal name v cs, s.value? isGlobal name = some v →
      (∀ c ∈ cs, ¬ c.Rebinds isGlobal name) →
      ∃ w, (s.performAll cs).value? isGlobal name = some w ∧ w.tag = v.tag) ∧
    (∀ v, s.Holds v → ∀ u : Value, u.Part v → u.normalized = u) := by
  constructor
  · intro isGlobal name v cs hvalue hcs
    exact HoldsTag.performAll ⟨v, hvalue, rfl⟩ hcs
  · exact fun v hv u hu => hu.normalized_eq (h.normalized_eq hv)

/-- A word that is stored as text, and another text in its place after the end of the pass. -/
theorem histories_keep_tags_across_pass :
    Reachable (performAll {} [.declare "x" (some (.identifier "a")) false]) ∧
      ∃ w, (performAll (performAll {} [.declare "x" (some (.identifier "a")) false])
          [.resetPass, .declare "x" none false, .assign "x" (.identifier "b") false]).value? false "x" =
        some w ∧ w.tag = .string := by
  have hreach : Reachable (performAll {} [.declare "x" (some (.identifier "a")) false]) :=
    Reachable.empty.performAll _
  have hvalue : (performAll {} [.declare "x" (some (.identifier "a")) false]).value? false "x" =
      some (.string "a") := by
    simp [performAll, perform, declare, settle, table, withTable, value?, Except.map, Catalog.find?,
      Roster.find?, Catalog.enter, Roster.enter, Roster.enterIn]
  exact ⟨hreach, (histories_keep_tags hreach).1 false "x" _ _ hvalue (by simp [Command.Rebinds])⟩

end Symbols

end LineScript
