/-
# References to objects

A value is grounded below `n` when it is one of the first `n` objects, or refers to no object at all, which goes for
what stands in groups too (`Value.Grounded`).  The stores are grounded when all that they hold is, and when the
variables that a host provides refer to nothing, so that they can outlive the objects.

* `Symbols.Grounded.perform`: operations on names keep a store grounded when they are given grounded values;
* `Objects.Grounded.addClassProperty`, `.setProperty`, `.create`: so do those on objects;
* `grounded_of_tokenize`: what is written in a line or looked up for it is grounded.
-/
import LineScript.Proofs.Symbols.Typing
import LineScript.Machine.Host

namespace LineScript

/-! ## Values -/

namespace Value

mutual

/-- Does a value refer to an object, by itself or in its elements?  It goes by the tag, and a bare word is stored as
plain text. -/
def refers : Value → Bool
  | object _ => true
  | text t _ => t == .object
  | group items => refersAny items
  | _ => false

/-- Does one of some values refer to an object? -/
def refersAny : List Value → Bool
  | [] => false
  | v :: rest => v.refers || refersAny rest

end

theorem refersAny_eq_any (items : List Value) : refersAny items = items.any refers := by
  induction items with
  | nil => rfl
  | cons v rest ih => rw [refersAny, List.any_cons, ih]

mutual

/-- The stored form refers to nothing when the value does not. -/
theorem refers_normalized : (v : Value) → v.refers = false → v.normalized.refers = false
  | number _, h => by simpa [normalized] using h
  | text t s, h => by cases t <;> simp_all [normalized, refers]
  | word _ _, _ => by simp [refers]
  | boolean _, h => by simpa [normalized] using h
  | group items, h => by
    rw [normalized_group, refers]
    exact refersAny_normalizedAll items h
  | object _, h => by simp [refers] at h
  | relpos _, h => by simpa [normalized] using h

theorem refersAny_normalizedAll : (items : List Value) → refersAny items = false →
    refersAny (normalizedAll items) = false
  | [], _ => by simp [normalizedAll, refersAny]
  | v :: rest, h => by
    rw [refersAny, Bool.or_eq_false_iff] at h
    rw [normalizedAll, refersAny, Bool.or_eq_false_iff]
    exact ⟨refers_normalized v h.1, refersAny_normalizedAll rest h.2⟩

end

/-- A stored value that refers to nothing has not the tag of objects. -/
theorem tag_normalized_ne {v : Value} (h : v.refers = false) : v.normalized.tag ≠ .object := by
  cases v with
  | text t s => cases t <;> simp_all [normalized, refers, tag]
  | object id => simp [refers] at h
  | number | word | boolean | group | relpos => simp [normalized, tag]

/-- A value is one of the first `n` objects, or it refers to none. -/
def Grounded (n : Nat) (v : Value) : Prop := v.refers = false ∨ ∃ id, id < n ∧ v = .object id

variable {n : Nat} {v : Value}

theorem Grounded.mono {k : Nat} (h : v.Grounded n) (hk : n ≤ k) : v.Grounded k :=
  h.imp_right fun ⟨id, hid, hv⟩ => ⟨id, Nat.lt_of_lt_of_le hid hk, hv⟩

theorem Grounded.normalized (h : v.Grounded n) : v.normalized.Grounded n := by
  rcases h with hfree | ⟨id, hid, rfl⟩
  · exact Or.inl (refers_normalized v hfree)
  · exact Or.inr ⟨id, hid, by simp [Value.normalized]⟩

theorem Grounded.object {id : Nat} (h : (Value.object id).Grounded n) : id < n := by
  rcases h with hfree | ⟨id', hid, hv⟩
  · simp [refers] at hfree
  · cases hv
    exact hid

/-- Elements of grounded groups refer to nothing. -/
theorem Grounded.element {items : List Value} (h : (Value.group items).Grounded n) (hv : v ∈ items) :
    v.Grounded n := by
  rcases h with hfree | ⟨id, -, hgroup⟩
  · rw [refers, refersAny_eq_any, List.any_eq_false] at hfree
    exact Or.inl (Bool.eq_false_iff.mpr (hfree v hv))
  · cases hgroup

theorem Grounded.of_part {u : Value} (h : v.Grounded n) (hpart : u.Part v) : u.Grounded n := by
  induction hpart with
  | self => exact h
  | element hmem _ ih => exact ih (h.element hmem)

/-- **Grounded values refer to objects that exist**, at any depth. -/
theorem Grounded.part {id : Nat} (h : v.Grounded n) (hpart : (Value.object id).Part v) : id < n :=
  (h.of_part hpart).object

end Value

/-! ## Names -/

namespace Symbols

/-- All values are grounded, and what the host provides refers to nothing. -/
structure Grounded (n : Nat) (s : Symbols) : Prop where
  values : ∀ v, s.Holds v → v.Grounded n
  owned : ∀ e ∈ s.globals.table.entries, e.2.hostOwned = true →
    ∃ v, e.2.value = some v ∧ v.refers = false ∧ v.tag ≠ .object

/-- An operation is given grounded values, and the host gives none that refers to an object. -/
def Command.Grounded (n : Nat) : Command → Prop
  | .provide _ value => value.refers = false
  | c => ∀ v ∈ c.values, v.Grounded n

variable {s s' : Symbols} {n : Nat} {name : String}

theorem grounded_empty (n : Nat) : Grounded n {} where
  values := by
    rintro v (⟨isGlobal, hmem, -⟩ | ⟨hframe, -⟩ | ⟨hit, -⟩)
    · cases isGlobal <;> cases hmem
    · cases hframe
    · cases hit
  owned := by
    rintro e ⟨⟩

theorem Grounded.mono {k : Nat} (h : s.Grounded n) (hk : n ≤ k) : s.Grounded k :=
  ⟨fun v hv => (h.values v hv).mono hk, h.owned⟩

/-- **Without objects a store that is cleared is grounded.** -/
theorem Grounded.clear (h : s.Grounded n) : s.clear.Grounded 0 where
  values := by
    intro v hv
    obtain ⟨name, var, hmem, howned, hvalue⟩ := Holds.of_clear hv
    obtain ⟨u, hu, hfree, -⟩ := h.owned _ hmem howned
    obtain rfl : u = v := Option.some.inj (hu.symm.trans hvalue)
    exact Or.inl hfree
  owned := fun e he => h.owned e (List.mem_filter.mp he).1

/-- A variable that is entered must refer to nothing if the host owns it. -/
theorem Grounded.owned_enter (h : s.Grounded n) {isGlobal : Bool} {var : Variable}
    (hvar : isGlobal = true → var.hostOwned = true →
      ∃ v, var.value = some v ∧ v.refers = false ∧ v.tag ≠ .object) :
    ∀ e ∈ (s.withTable isGlobal ((s.table isGlobal).enter name var)).globals.table.entries,
      e.2.hostOwned = true → ∃ v, e.2.value = some v ∧ v.refers = false ∧ v.tag ≠ .object := by
  cases isGlobal with
  | false => exact h.owned
  | true =>
    intro e he howned
    rcases Roster.mem_enter he with hold | rfl
    · exact h.owned e hold howned
    · exact hvar rfl howned

/-- Values of the host are replaced by values of their tag only, so they never come to refer to objects. -/
theorem Grounded.owned_perform (h : s.Grounded n) {c : Command} (hc : c.Grounded n) :
    ∀ e ∈ (s.perform c).2.globals.table.entries, e.2.hostOwned = true →
      ∃ v, e.2.value = some v ∧ v.refers = false ∧ v.tag ≠ .object := by
  let Owned (s' : Symbols) : Prop := ∀ e ∈ s'.globals.table.entries, e.2.hostOwned = true →
    ∃ v, e.2.value = some v ∧ v.refers = false ∧ v.tag ≠ .object
  by_cases hspares : c.sparesVariables = true
  · rw [(variables_perform s hspares).2]
    exact h.owned
  cases c with
  | declare name initial isGlobal =>
    refine settle_keeps (P := Owned) h.owned _ fun s' hok => ?_
    obtain ⟨var, rfl, hentry⟩ := declare_entry hok
    refine h.owned_enter ?_
    rintro rfl howned
    rcases hentry with ⟨-, rfl⟩ | ⟨before, hfound, -, -, rfl⟩
    · cases howned
    · obtain ⟨v, hvalue, hfree⟩ := h.owned _ (Roster.mem_of_find? hfound) howned
      have hbefore : before.value = some v := hvalue
      exact ⟨v, by rw [hbefore]; rfl, hfree⟩
  | assign name value isGlobal =>
    refine settle_keeps (P := Owned) h.owned _ fun s' hok => ?_
    obtain ⟨before, hfound, -, htags, rfl⟩ := assign_entry hok
    refine h.owned_enter ?_
    rintro rfl howned
    obtain ⟨v, hvalue, -, htag⟩ := h.owned _ (Roster.mem_of_find? hfound) howned
    have hsame : v.tag = value.normalized.tag := htags v hvalue
    refine ⟨value.normalized, rfl, ?_, hsame ▸ htag⟩
    rcases (hc value (List.mem_singleton_self _)).normalized with hfree | ⟨id, -, hobject⟩
    · exact hfree
    · rw [hobject] at hsame
      exact absurd hsame htag
  | provide name value =>
    have hvalue : ∃ v, some value.normalized = some v ∧ v.refers = false ∧ v.tag ≠ .object :=
      ⟨_, rfl, Value.refers_normalized value hc, Value.tag_normalized_ne hc⟩
    have hentered : Owned (s.withTable true ((s.table true).enter name ⟨some value.normalized, true, true⟩)) :=
      h.owned_enter fun _ _ => hvalue
    exact hentered
  | declareFunction | finishDeclaration | call | finishCall | iterate => exact absurd rfl hspares
  | resetPass =>
    intro e he howned
    obtain ⟨⟨name, before⟩, hbefore, rfl⟩ := List.mem_map.mp he
    exact h.owned (name, before) hbefore howned
  | clear => exact fun e he => h.owned e (List.mem_filter.mp he).1

/-- **Operations that are given grounded values keep a store grounded.** -/
theorem Grounded.perform (h : s.Grounded n) {c : Command} (hc : c.Grounded n) :
    (s.perform c).2.Grounded n where
  values := by
    intro v hv
    rcases hv.of_perform with hold | ⟨u, hu, rfl⟩
    · exact h.values v hold
    · have hgiven : u.Grounded n := by
        cases c with
        | provide name value =>
          obtain rfl := List.mem_singleton.mp hu
          exact Or.inl hc
        | _ => exact hc u hu
      exact hgiven.normalized
  owned := h.owned_perform hc

/-- What is looked up is held. -/
theorem holds_of_lookup {reach : Reach} {v : Value} (h : s.lookup name reach = .ok v) : s.Holds v := by
  have hreadable : ∀ isGlobal isGlobal', readable (s.table isGlobal) isGlobal' name = .ok v → s.Holds v := by
    intro isGlobal isGlobal' h
    unfold readable at h
    split at h
    · cases h
    · rename_i var hfound
      split_ifs at h
      split at h
      · rename_i hvalue
        cases h
        exact .variable isGlobal (Roster.mem_of_find? hfound) hvalue
      · cases h
  have hparam : ∀ frame : Frame, frame ∈ s.calls → frame.param? name = some v → s.Holds v := by
    intro frame hframe hfound
    obtain ⟨before, after, hbindings, -⟩ := List.lookup_eq_some_iff.mp hfound
    have hmem : (name, v) ∈ frame.bindings := by
      rw [← List.mem_reverse, hbindings]
      exact List.mem_append_right before List.mem_cons_self
    exact .argument hframe (List.mem_map.mpr ⟨_, hmem, rfl⟩)
  cases reach with
  | locals => exact hreadable false false h
  | globals => exact hreadable true true h
  | parameters =>
    unfold lookup at h
    dsimp only at h
    split at h
    · cases h
    · rename_i frame hframe
      split at h
      · rename_i w hfound
        cases h
        exact hparam frame (List.mem_of_head? hframe) hfound
      · cases h
  | nearest =>
    unfold lookup at h
    dsimp only at h
    split at h
    · rename_i w hfound
      cases h
      obtain ⟨frame, hframe, hfound'⟩ := Option.bind_eq_some_iff.mp hfound
      exact hparam frame (List.mem_of_head? hframe) hfound'
    · exact hreadable false false h

end Symbols

/-! ## Objects -/

namespace Objects

/-- A value stands among the defaults of a class or among the properties of an object. -/
inductive Holds (o : Objects) (v : Value) : Prop
  | default {e : String × ObjectClass} {name : String} :
      e ∈ o.classes.entries → (name, v) ∈ e.2.properties.entries → Holds o v
  | property {object : Object} {name : String} :
      object ∈ o.objects → (name, v) ∈ object.properties.entries → Holds o v

/-- All values are grounded in the objects that are there. -/
def Grounded (o : Objects) : Prop := ∀ v, o.Holds v → v.Grounded o.objects.size

variable {o o' : Objects} {name : String}

theorem grounded_empty : Grounded {} := by
  rintro v (⟨he, -⟩ | ⟨hobject, -⟩)
  · cases he
  · simp at hobject

/-- Entering a class adds at most its defaults. -/
theorem Holds.of_class {v : Value} {c : ObjectClass}
    (h : Holds { o with classes := o.classes.enter name c } v) :
    o.Holds v ∨ ∃ prop, (prop, v) ∈ c.properties.entries := by
  cases h with
  | default he hprop =>
    rcases Roster.mem_enter he with hold | rfl
    · exact Or.inl (.default hold hprop)
    · exact Or.inr ⟨_, hprop⟩
  | property hobject hprop => exact Or.inl (.property hobject hprop)

/-- A class that is declared has no defaults yet. -/
theorem Holds.of_declareClass {v : Value} (hok : o.declareClass name = .ok o') (h : o'.Holds v) : o.Holds v := by
  obtain ⟨-, rfl⟩ := declareClass_eq_ok hok
  rcases h.of_class with hold | ⟨prop, hprop⟩
  · exact hold
  · cases hprop

/-- What is among values after an entry is the value of the property entered, or was there before. -/
theorem mem_values_enter {r : Roster Property} {p : Property} {prop : String} {v : Value}
    (h : (prop, v) ∈ ((r.enter name p).map (·.value)).entries) :
    (prop, v) ∈ (r.map (·.value)).entries ∨ p.value = v := by
  obtain ⟨⟨n, q⟩, hmem, heq⟩ := List.mem_map.mp h
  cases heq
  rcases Roster.mem_enter hmem with hold | hnew
  · exact Or.inl (List.mem_map.mpr ⟨_, hold, rfl⟩)
  · cases hnew
    exact Or.inr rfl

/-- A class property adds the stored form of its default. -/
theorem Holds.of_addClassProperty {v default : Value} {className : String}
    (hok : o.addClassProperty className name default = .ok o') (h : o'.Holds v) :
    o.Holds v ∨ default.normalized = v := by
  obtain ⟨c, hfound, -, rfl⟩ := addClassProperty_eq_ok hok
  rcases h.of_class with hold | ⟨prop, hprop⟩
  · exact Or.inl hold
  · exact (mem_values_enter hprop).imp_left (.default (Roster.mem_of_find? hfound))

/-- A new object has no properties of its own. -/
theorem Holds.of_push {v : Value} {className : Option String}
    (h : Holds { o with objects := o.objects.push ⟨className, {}⟩ } v) : o.Holds v := by
  cases h with
  | default he hprop => exact .default he hprop
  | property hobject hprop =>
    rcases Array.mem_push.mp hobject with hold | rfl
    · exact .property hold hprop
    · cases hprop

/-- A property that is set adds the stored form of its value. -/
theorem Holds.of_setProperty {v value : Value} {id : Nat} (hok : o.setProperty id name value = .ok o')
    (h : o'.Holds v) : o.Holds v ∨ value.normalized = v := by
  obtain ⟨object, hobject, rfl, -⟩ := setProperty_eq_ok hok
  cases h with
  | default he hprop => exact Or.inl (.default he hprop)
  | property hmem hprop =>
    rcases Array.mem_or_eq_of_mem_setIfInBounds hmem with hold | rfl
    · exact Or.inl (.property hold hprop)
    · exact (mem_values_enter hprop).imp_left (.property (Array.mem_of_getElem? hobject))

theorem Holds.of_resetPass {v : Value} (h : o.resetPass.Holds v) : o.Holds v := by
  cases h with
  | default he hprop =>
    obtain ⟨⟨className, c⟩, hbefore, rfl⟩ := List.mem_map.mp he
    exact .default (e := (className, c)) hbefore hprop
  | property hobject hprop => exact .property hobject hprop

theorem Grounded.declareClass (h : o.Grounded) (hok : o.declareClass name = .ok o') :
    o'.Grounded ∧ o'.objects.size = o.objects.size := by
  have hsize : o'.objects.size = o.objects.size := by
    obtain ⟨-, rfl⟩ := declareClass_eq_ok hok
    rfl
  refine ⟨fun v hv => ?_, hsize⟩
  rw [hsize]
  exact h v (hv.of_declareClass hok)

theorem Grounded.addClassProperty (h : o.Grounded) {className : String} {default : Value}
    (hdefault : default.Grounded o.objects.size)
    (hok : o.addClassProperty className name default = .ok o') :
    o'.Grounded ∧ o'.objects.size = o.objects.size := by
  have hsize : o'.objects.size = o.objects.size := by
    obtain ⟨c, -, -, rfl⟩ := addClassProperty_eq_ok hok
    rfl
  refine ⟨fun v hv => ?_, hsize⟩
  rw [hsize]
  rcases hv.of_addClassProperty hok with hold | rfl
  · exact h v hold
  · exact hdefault.normalized

theorem Grounded.push (h : o.Grounded) (className : Option String) :
    Grounded { o with objects := o.objects.push ⟨className, {}⟩ } := by
  intro v hv
  refine (h v hv.of_push).mono ?_
  show o.objects.size ≤ (o.objects.push ⟨className, {}⟩).size
  rw [Array.size_push]
  exact Nat.le_succ _

theorem Grounded.setProperty (h : o.Grounded) {id : Nat} {value : Value}
    (hvalue : value.Grounded o.objects.size) (hok : o.setProperty id name value = .ok o') :
    o'.Grounded ∧ o'.objects.size = o.objects.size := by
  have hsize : o'.objects.size = o.objects.size := by
    obtain ⟨object, -, rfl, -⟩ := setProperty_eq_ok hok
    exact Array.size_setIfInBounds
  refine ⟨fun v hv => ?_, hsize⟩
  rw [hsize]
  rcases hv.of_setProperty hok with hold | rfl
  · exact h v hold
  · exact hvalue.normalized

theorem Grounded.resetPass (h : o.Grounded) : o.resetPass.Grounded := fun v hv => h v hv.of_resetPass

/-- A property that is read is held. -/
theorem holds_of_property {id : Nat} {v : Value} (h : o.property id name = .ok v) : o.Holds v := by
  unfold property at h
  split at h
  · cases h
  · rename_i object hobject
    split at h
    · rename_i p hfound
      cases h
      unfold shown? at hfound
      cases hown : object.own.find? name with
      | some held =>
        rw [hown] at hfound
        cases hfound
        have hvalue : object.properties.find? name = some p.value := by
          rw [Object.properties, Roster.find?_map, hown, Option.map_some]
        exact .property (Array.mem_of_getElem? hobject) (Roster.mem_of_find? hvalue)
      | none =>
        rw [hown] at hfound
        obtain ⟨className, -, hclass⟩ := Option.bind_eq_some_iff.mp hfound
        obtain ⟨c, hc, hdefault⟩ := Option.bind_eq_some_iff.mp hclass
        have hvalue : c.properties.find? name = some p.value := by
          rw [ObjectClass.properties, Roster.find?_map, hdefault, Option.map_some]
        exact .default (Roster.mem_of_find? hc) (Roster.mem_of_find? hvalue)
    · cases h

end Objects

/-! ## Lines -/

theorem refers_wordValue (types : List WordType) (s : String) : (wordValue types s).refers = false := by
  have hsingle : ∀ s, (coerceSingle types s).refers = false := by
    intro s
    unfold coerceSingle
    split_ifs
    · simp [Value.refers]
    · simp [Value.refers]
    · simp [Value.refers]
    · split
      · simp [Value.refers]
      · split <;> simp [Value.refers]
  have hcoerce : (coerce types s).refers = false := by
    unfold coerce
    split
    · rw [Value.refers, Value.refersAny_eq_any, List.any_eq_false]
      intro v hv
      obtain ⟨item, -, rfl⟩ := List.mem_map.mp hv
      exact Bool.eq_false_iff.mp (hsingle item)
    · exact hsingle s
  unfold wordValue classify
  split
  · split
    · simp [Value.refers]
    · split
      · simp [Value.refers]
      · exact hcoerce
  · exact hcoerce

/-- What operations on a list give at a place is given by the one at this place. -/
theorem getElem?_of_mapM {α β : Type} {k : α → Except Fault β} {l : List α} {r : List β} (h : l.mapM k = .ok r)
    {i : Nat} {y : β} (hy : r[i]? = some y) : ∃ x, l[i]? = some x ∧ k x = .ok y := by
  induction l generalizing r i with
  | nil =>
    rw [List.mapM_nil] at h
    cases h
    cases hy
  | cons x rest ih =>
    rw [List.mapM_cons] at h
    obtain ⟨z, hz, hmore⟩ := Symbols.bind_eq_ok h
    obtain ⟨zs, hzs, hlast⟩ := Symbols.bind_eq_ok hmore
    cases hlast
    cases i with
    | zero =>
      cases hy
      exact ⟨x, rfl, hz⟩
    | succ i => exact ih hzs hy

/-- The members of a list that operations give are given by some of them. -/
theorem mem_of_mapM {α β : Type} {k : α → Except Fault β} {l : List α} {r : List β}
    (h : l.mapM k = .ok r) {y : β} (hy : y ∈ r) : ∃ x ∈ l, k x = .ok y := by
  obtain ⟨i, hi⟩ := List.mem_iff_getElem?.mp hy
  obtain ⟨x, hx, hk⟩ := getElem?_of_mapM h hi
  exact ⟨x, List.mem_of_getElem? hx, hk⟩

/-- **What a reference gives is held**, or it is an element of what is held. -/
theorem part_of_resolver {s : Symbols} {o : Objects} {r : Reference} {v : Value} (h : resolver s o r = .ok v) :
    ∃ u, (s.Holds u ∨ o.Holds u) ∧ v.Part u := by
  unfold resolver at h
  split at h
  · exact ⟨v, Or.inl (Symbols.holds_of_lookup h), .self⟩
  · obtain ⟨base, hbase, hmember⟩ := Symbols.bind_eq_ok h
    have hheld := Symbols.holds_of_lookup hbase
    split at hmember
    · rename_i items
      unfold elementAt at hmember
      split at hmember
      · cases hmember
      · split at hmember
        · rename_i hitem
          cases hmember
          exact ⟨.group items, Or.inl hheld, .element (List.mem_of_getElem? hitem) .self⟩
        · cases hmember
    · unfold propertyOf at hmember
      split at hmember
      · cases hmember
      · exact ⟨v, Or.inr (Objects.holds_of_property hmember), .self⟩
    · cases hmember

/-- What a reference gives is grounded. -/
theorem grounded_of_resolver {s : Symbols} {o : Objects} (hs : s.Grounded o.objects.size)
    (ho : o.Grounded) {r : Reference} {v : Value} (h : resolver s o r = .ok v) :
    v.Grounded o.objects.size := by
  obtain ⟨u, hheld, hpart⟩ := part_of_resolver h
  exact (hheld.elim (hs.values u) (ho u)).of_part hpart

/-- **What is written in a line or looked up for it is grounded.** -/
theorem grounded_of_tokenize {s : Symbols} {o : Objects} (hs : s.Grounded o.objects.size)
    (ho : o.Grounded) {types : List WordType} {line : String} {tokens : List Token}
    (h : tokenize types (some (resolver s o)) line = .ok tokens) :
    ∀ t ∈ tokens, t.value.Grounded o.objects.size := by
  obtain ⟨found, hfound, hlast⟩ := Symbols.bind_eq_ok h
  split at hlast
  · cases hlast
  · cases hlast
    intro t ht
    obtain ⟨l, -, hl⟩ := mem_of_mapM hfound ht
    cases l with
    | bare word =>
      cases hl
      exact Or.inl (refers_wordValue _ _)
    | quoted text =>
      cases hl
      exact Or.inl (by simp [Value.refers])
    | group inner =>
      cases hl
      refine Or.inl ?_
      rw [Value.refers, Value.refersAny_eq_any, List.any_eq_false]
      intro v hv
      obtain ⟨item, -, rfl⟩ := List.mem_map.mp hv
      exact Bool.eq_false_iff.mp (refers_wordValue _ _)
    | reference raw reach =>
      obtain ⟨v, hv, hlast⟩ := Symbols.bind_eq_ok hl
      cases hlast
      exact grounded_of_resolver hs ho hv

end LineScript
