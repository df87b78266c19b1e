/-
# Properties of objects

An object shows the property that it owns under a name, or else the default of its class (`Objects.shown?`), and a
write enters an own property.

* `Stable.perform`: within a pass every property that an object of a class owns is one of the class, of the same tag,
  and every value in the store has the tag of its property and is in stored form;
* `ReadsTag.perform`: what an object shows under a name keeps its tag, also where the default gives way to a copy of
  the object's own;
* `property_enterOwn`: a write is seen where it was made and nowhere else;
* `OwnsDistinct.perform`: no object owns two properties of one name.

Main statements: tags last as long as the pass (`properties_keep_tags`), and a write of a property reaches that property
alone (`writes_are_isolated`).
-/
import LineScript.Objects

namespace LineScript

/-- A property is settled when its value has its tag and is in stored form. -/
structure Property.Settled (p : Property) : Prop where
  tag : p.value.tag = p.tag
  normalized : p.value.normalized = p.value

theorem Property.settled_ofValue (v : Value) : (ofValue v).Settled := ⟨rfl, v.normalized_normalized⟩

namespace Objects

variable {s s' : Objects} {id : Nat} {name prop className : String} {value v : Value} {tag : Tag}

/-! ## Histories within a pass -/

/-- A fault leaves no trace, so only the successes of an operation have to be looked at. -/
theorem settle_keeps {α : Type} {P : Objects → Prop} (h : P s) {e : Except Fault α} (k : α → Reply × Objects)
    (hok : ∀ x, e = .ok x → P (k x).2) : P (s.settle (e.map k)).2 := by
  cases e with
  | error fault => exact h
  | ok x => exact hok x rfl

/-- Does an operation leave the pass going? -/
def Command.staysInPass : Command → Bool
  | .declareClass _ | .addClassProperty .. | .create _ | .setProperty .. => true
  | .resetPass | .clear => false

/-- The stores that some history within the first pass leads to from the empty one. -/
inductive InPass : Objects → Prop
  | empty : InPass {}
  | step {s : Objects} (c : Command) (hc : c.staysInPass = true) : InPass s → InPass (s.perform c).2

/-- The store after a history of operations. -/
def performAll (s : Objects) (cs : List Command) : Objects := cs.foldl (fun s c => (s.perform c).2) s

/-! ## What an object shows -/

/-- Reading a property gives the value of the one that is shown. -/
theorem property_eq_ok : s.property id name = .ok v ↔
    ∃ o p, s.objects[id]? = some o ∧ s.shown? o name = some p ∧ p.value = v := by
  unfold property
  cases ho : s.objects[id]? with
  | none => simp
  | some o =>
    cases hshown : s.shown? o name with
    | none => simp [hshown]
    | some p => simp [hshown]

/-- An object shows what it owns. -/
theorem shown?_of_own {o : Object} {p : Property} (h : o.own.find? name = some p) : s.shown? o name = some p := by
  rw [shown?, h]
  rfl

/-- For what it does not own, an object shows the default of its class. -/
theorem shown?_of_not_own {o : Object} (h : o.own.find? name = none) :
    s.shown? o name = s.classDefault? o name := by
  rw [shown?, h]
  rfl

/-- A default comes from the class of the object. -/
theorem classDefault?_eq_some {o : Object} {p : Property} :
    s.classDefault? o name = some p ↔ ∃ className c, o.className = some className ∧
      s.classes.find? className = some c ∧ c.defaults.find? name = some p := by
  simp only [classDefault?, Option.bind_eq_bind, Option.bind_eq_some_iff]
  constructor
  · rintro ⟨className, hclass, c, hc, hp⟩
    exact ⟨className, c, hclass, hc, hp⟩
  · rintro ⟨className, c, hclass, hc, hp⟩
    exact ⟨className, hclass, c, hc, hp⟩

/-! ## Typing within a pass -/

/-- A property stands among the defaults of a class or among those that an object owns. -/
inductive Stores (s : Objects) (p : Property) : Prop
  | default {e : String × ObjectClass} {name : String} :
      e ∈ s.classes.entries → (name, p) ∈ e.2.defaults.entries → Stores s p
  | own {o : Object} {name : String} : o ∈ s.objects → (name, p) ∈ o.own.entries → Stores s p

/-- A class of the current pass has a property of some tag. -/
def ClassHasTag (s : Objects) (className prop : String) (tag : Tag) : Prop :=
  ∃ c held, s.class? className = some c ∧ c.defaults.find? prop = some held ∧ held.tag = tag

/-- What holds of a store as long as the pass lasts. -/
structure Stable (s : Objects) : Prop where
  /-- No class is left over from an earlier pass. -/
  declared : ∀ e ∈ s.classes.entries, e.2.declared = true
  settled : ∀ p, s.Stores p → p.Settled
  /-- An object of a class owns only properties of the class. -/
  owned : ∀ o ∈ s.objects, ∀ className, o.className = some className →
    ∀ prop p, (prop, p) ∈ o.own.entries → s.ClassHasTag className prop p.tag

theorem stable_empty : Stable {} where
  declared := by simp
  settled := by
    rintro p (⟨he, -⟩ | ⟨ho, -⟩)
    · cases he
    · simp at ho
  owned := by simp

/-- Where all classes are declared, each class that is there is one of the pass. -/
theorem Stable.class?_of_find? (h : s.Stable) {c : ObjectClass} (hc : s.classes.find? className = some c) :
    s.class? className = some c := by
  rw [class?, hc, Option.filter_some, h.declared _ (Roster.mem_of_find? hc)]
  rfl

/-- A class that is declared is another than those of the pass. -/
theorem ClassHasTag.declareClass (h : s.ClassHasTag className prop tag) (hok : s.declareClass name = .ok s') :
    s'.ClassHasTag className prop tag := by
  obtain ⟨hfree, rfl⟩ := declareClass_eq_ok hok
  obtain ⟨c, held, hc, hheld, htag⟩ := h
  have hne : className ≠ name := by
    rintro rfl
    rw [hfree] at hc
    cases hc
  exact ⟨c, held, by rwa [class?, Roster.find?_enter_of_ne _ hne], hheld, htag⟩

/-- A property that a class gains is another than those that it has. -/
theorem ClassHasTag.addClassProperty {other : String} (h : s.ClassHasTag className prop tag)
    (hok : s.addClassProperty other name value = .ok s') : s'.ClassHasTag className prop tag := by
  obtain ⟨c', hc', hfree, rfl⟩ := addClassProperty_eq_ok hok
  obtain ⟨c, held, hc, hheld, htag⟩ := h
  by_cases hclass : className = other
  · subst hclass
    obtain ⟨hfound, hdeclared⟩ := Option.filter_eq_some_iff.mp hc
    obtain rfl : c' = c := Option.some.inj (hc'.symm.trans hfound)
    have hne : prop ≠ name := by
      rintro rfl
      rw [hfree] at hheld
      cases hheld
    refine ⟨{ c' with defaults := c'.defaults.enter name (.ofValue value) }, held, ?_, ?_, htag⟩
    · rw [class?, Roster.find?_enter_self]
      exact Option.filter_eq_some_iff.mpr ⟨rfl, hdeclared⟩
    · exact (Roster.find?_enter_of_ne _ hne _).trans hheld
  · exact ⟨c, held, by rwa [class?, Roster.find?_enter_of_ne _ hclass], hheld, htag⟩

theorem Stable.declareClass (h : s.Stable) (hok : s.declareClass name = .ok s') : s'.Stable := by
  have hkept := fun className prop tag (hhas : s.ClassHasTag className prop tag) => hhas.declareClass hok
  obtain ⟨-, rfl⟩ := declareClass_eq_ok hok
  refine ⟨?_, ?_, fun o ho cn hcn prop p hp => hkept _ _ _ (h.owned o ho cn hcn prop p hp)⟩
  · intro e he
    rcases Roster.mem_enter he with hold | rfl
    · exact h.declared e hold
    · rfl
  · rintro p (⟨he, hp⟩ | ⟨ho, hp⟩)
    · rcases Roster.mem_enter he with hold | rfl
      · exact h.settled p (.default hold hp)
      · cases hp
    · exact h.settled p (.own ho hp)

theorem Stable.addClassProperty (h : s.Stable) (hok : s.addClassProperty className name value = .ok s') :
    s'.Stable := by
  have hkept := fun cn prop tag (hhas : s.ClassHasTag cn prop tag) => hhas.addClassProperty hok
  obtain ⟨c, hc, -, rfl⟩ := addClassProperty_eq_ok hok
  have hmem := Roster.mem_of_find? hc
  refine ⟨?_, ?_, fun o ho cn hcn prop p hp => hkept _ _ _ (h.owned o ho cn hcn prop p hp)⟩
  · intro e he
    rcases Roster.mem_enter he with hold | rfl
    · exact h.declared e hold
    · exact (h.declared _ hmem : c.declared = true)
  · rintro p (⟨he, hp⟩ | ⟨ho, hp⟩)
    · rcases Roster.mem_enter he with hold | rfl
      · exact h.settled p (.default hold hp)
      · rcases Roster.mem_enter hp with hold | hnew
        · exact h.settled p (.default hmem hold)
        · cases hnew
          exact Property.settled_ofValue value
    · exact h.settled p (.own ho hp)

/-- A new object owns nothing. -/
theorem Stable.push (h : s.Stable) (className : Option String) :
    Stable { s with objects := s.objects.push ⟨className, {}⟩ } := by
  refine ⟨h.declared, ?_, ?_⟩
  · rintro p (⟨he, hp⟩ | ⟨ho, hp⟩)
    · exact h.settled p (.default he hp)
    · rcases Array.mem_push.mp ho with hold | rfl
      · exact h.settled p (.own hold hp)
      · cases hp
  · intro o ho cn hcn prop p hp
    rcases Array.mem_push.mp ho with hold | rfl
    · exact h.owned o hold cn hcn prop p hp
    · cases hp

theorem Stable.setProperty (h : s.Stable) (hok : s.setProperty id name value = .ok s') : s'.Stable := by
  obtain ⟨o, ho, rfl, hheld, hnew⟩ := setProperty_eq_ok hok
  have hmem := Array.mem_of_getElem? ho
  refine ⟨h.declared, ?_, ?_⟩
  · rintro p (⟨he, hp⟩ | ⟨ho', hp⟩)
    · exact h.settled p (.default he hp)
    · rcases Array.mem_or_eq_of_mem_setIfInBounds ho' with hold | rfl
      · exact h.settled p (.own hold hp)
      · rcases Roster.mem_enter hp with hold | hentered
        · exact h.settled p (.own hmem hold)
        · cases hentered
          exact Property.settled_ofValue value
  · intro o' ho' cn hcn prop p hp
    rcases Array.mem_or_eq_of_mem_setIfInBounds ho' with hold | rfl
    · exact h.owned o' hold cn hcn prop p hp
    rcases Roster.mem_enter hp with hold | hentered
    · exact h.owned o hmem cn hcn prop p hold
    cases hentered
    -- the copy replaces one of its tag, or has the tag of the default
    cases hown : o.own.find? name with
    | some held =>
      have hhas : s.ClassHasTag cn name held.tag := h.owned o hmem cn hcn name held (Roster.mem_of_find? hown)
      rw [hheld held hown] at hhas
      exact hhas
    | none =>
      obtain ⟨c, held, hc, hdefault, htag⟩ := checkNew_eq_ok (hnew hown) hcn
      exact ⟨c, held, h.class?_of_find? hc, hdefault, htag⟩

/-- **One operation of the pass.** -/
theorem Stable.perform {c : Command} (h : s.Stable) (hc : c.staysInPass = true) : (s.perform c).2.Stable := by
  cases c with
  | declareClass name => exact settle_keeps h _ fun s' hok => h.declareClass hok
  | addClassProperty className name default => exact settle_keeps h _ fun s' hok => h.addClassProperty hok
  | create className =>
    refine settle_keeps h _ fun (id, s') hok => ?_
    obtain ⟨-, rfl⟩ := create_eq_ok hok
    exact h.push className
  | setProperty id name value => exact settle_keeps h _ fun s' hok => h.setProperty hok
  | resetPass => cases hc
  | clear => cases hc

/-- A store within the pass is stable. -/
theorem InPass.stable (h : InPass s) : s.Stable := by
  induction h with
  | empty => exact stable_empty
  | step c hc _ ih => exact ih.perform hc

/-! ## Tags over time -/

/-- An object owns a property of some tag, or its class has one that it does not own. -/
def ShowsTag (s : Objects) (id : Nat) (name : String) (tag : Tag) : Prop :=
  ∃ o, s.objects[id]? = some o ∧
    ((∃ p, o.own.find? name = some p ∧ p.tag = tag) ∨
      o.own.find? name = none ∧ ∃ className, o.className = some className ∧ s.ClassHasTag className name tag)

/-- Within a pass, what is read has the tag of the property that is shown. -/
theorem Stable.showsTag (h : s.Stable) (hread : s.property id name = .ok v) : s.ShowsTag id name v.tag := by
  obtain ⟨o, p, ho, hshown, rfl⟩ := property_eq_ok.mp hread
  refine ⟨o, ho, ?_⟩
  cases hown : o.own.find? name with
  | some held =>
    obtain rfl : held = p := Option.some.inj ((shown?_of_own hown).symm.trans hshown)
    have hsettled := h.settled held (.own (Array.mem_of_getElem? ho) (Roster.mem_of_find? hown))
    exact Or.inl ⟨held, rfl, hsettled.tag.symm⟩
  | none =>
    rw [shown?_of_not_own hown] at hshown
    obtain ⟨className, c, hclass, hc, hdefault⟩ := classDefault?_eq_some.mp hshown
    have hsettled := h.settled p (.default (Roster.mem_of_find? hc) (Roster.mem_of_find? hdefault))
    exact Or.inr ⟨rfl, className, hclass, c, p, h.class?_of_find? hc, hdefault, hsettled.tag.symm⟩

/-- What is shown can be read. -/
theorem Stable.exists_property (h : s.Stable) (hshows : s.ShowsTag id name tag) :
    ∃ v, s.property id name = .ok v ∧ v.tag = tag := by
  obtain ⟨o, ho, ⟨p, hown, rfl⟩ | ⟨hown, className, hclass, c, p, hc, hdefault, rfl⟩⟩ := hshows
  · have hsettled := h.settled p (.own (Array.mem_of_getElem? ho) (Roster.mem_of_find? hown))
    exact ⟨p.value, property_eq_ok.mpr ⟨o, p, ho, shown?_of_own hown, rfl⟩, hsettled.tag⟩
  · obtain ⟨hc, -⟩ := Option.filter_eq_some_iff.mp hc
    have hsettled := h.settled p (.default (Roster.mem_of_find? hc) (Roster.mem_of_find? hdefault))
    have hshown : s.shown? o name = some p :=
      (shown?_of_not_own hown).trans (classDefault?_eq_some.mpr ⟨className, c, hclass, hc, hdefault⟩)
    exact ⟨p.value, property_eq_ok.mpr ⟨o, p, ho, hshown, rfl⟩, hsettled.tag⟩

/-- Where objects are left alone and classes keep the tags of their properties, so does what objects show. -/
theorem ShowsTag.of_classes (h : s.ShowsTag id name tag) (hobjects : s'.objects = s.objects)
    (hclasses : ∀ className, s.ClassHasTag className name tag → s'.ClassHasTag className name tag) :
    s'.ShowsTag id name tag := by
  obtain ⟨o, ho, hcase⟩ := h
  refine ⟨o, by rwa [hobjects], hcase.imp_right ?_⟩
  rintro ⟨hown, className, hclass, hhas⟩
  exact ⟨hown, className, hclass, hclasses className hhas⟩

/-- A write keeps the tag that the object shows under the name, and nothing else changes. -/
theorem ShowsTag.setProperty (h : s.ShowsTag id name tag) {other : Nat}
    (hok : s.setProperty other prop value = .ok s') : s'.ShowsTag id name tag := by
  obtain ⟨o, ho, rfl, hheld, hnew⟩ := setProperty_eq_ok hok
  obtain ⟨o', ho', hcase⟩ := h
  by_cases hid : id = other
  · subst hid
    obtain rfl : o = o' := Option.some.inj (ho.symm.trans ho')
    have hlt : id < s.objects.size := (Array.getElem?_eq_some_iff.mp ho).1
    refine ⟨{ o with own := o.own.enter prop (.ofValue value) }, Array.getElem?_setIfInBounds_self_of_lt hlt, ?_⟩
    by_cases hname : name = prop
    · subst hname
      refine Or.inl ⟨.ofValue value, Roster.find?_enter_self _ _ _, ?_⟩
      rcases hcase with ⟨p, hown, rfl⟩ | ⟨hown, className, hclass, c, p, hc, hdefault, rfl⟩
      · exact (hheld p hown).symm
      · -- the first copy: it was checked against the default
        obtain ⟨c', held, hc', hheld', htag⟩ := checkNew_eq_ok (hnew hown) hclass
        obtain ⟨hc, -⟩ := Option.filter_eq_some_iff.mp hc
        obtain rfl : c = c' := Option.some.inj (hc.symm.trans hc')
        obtain rfl : p = held := Option.some.inj (hdefault.symm.trans hheld')
        exact htag.symm
    · rw [Roster.find?_enter_of_ne _ hname]
      exact hcase
  · exact ⟨o', (Array.getElem?_setIfInBounds_ne (Ne.symm hid)).trans ho', hcase⟩

/-- **Operations of the pass keep the tag that an object shows under a name.** -/
theorem ShowsTag.perform {c : Command} (h : s.ShowsTag id name tag) (hc : c.staysInPass = true) :
    (s.perform c).2.ShowsTag id name tag := by
  cases c with
  | declareClass other =>
    refine settle_keeps (P := (·.ShowsTag id name tag)) h _ fun s' hok => ?_
    refine h.of_classes ?_ fun className hhas => hhas.declareClass hok
    obtain ⟨-, rfl⟩ := declareClass_eq_ok hok
    rfl
  | addClassProperty other prop default =>
    refine settle_keeps (P := (·.ShowsTag id name tag)) h _ fun s' hok => ?_
    refine h.of_classes ?_ fun className hhas => hhas.addClassProperty hok
    obtain ⟨c, -, -, rfl⟩ := addClassProperty_eq_ok hok
    rfl
  | create className =>
    refine settle_keeps (P := (·.ShowsTag id name tag)) h _ fun (other, s') hok => ?_
    obtain ⟨-, rfl⟩ := create_eq_ok hok
    obtain ⟨o, ho, hcase⟩ := h
    have hlt : id < s.objects.size := (Array.getElem?_eq_some_iff.mp ho).1
    exact ⟨o, by rw [Array.getElem?_push_lt hlt, ← ho, Array.getElem?_eq_getElem hlt], hcase⟩
  | setProperty other prop value =>
    exact settle_keeps (P := (·.ShowsTag id name tag)) h _ fun s' hok => h.setProperty hok
  | resetPass => cases hc
  | clear => cases hc

/-- Over any further operations of the pass, the store stays stable and the tag is kept. -/
theorem ShowsTag.performAll {cs : List Command} (h : s.ShowsTag id name tag) (hs : s.Stable)
    (hcs : ∀ c ∈ cs, c.staysInPass = true) :
    (s.performAll cs).ShowsTag id name tag ∧ (s.performAll cs).Stable := by
  induction cs generalizing s with
  | nil => exact ⟨h, hs⟩
  | cons c rest ih =>
    have hc := hcs c List.mem_cons_self
    exact ih (h.perform hc) (hs.perform hc) fun c' hc' => hcs c' (List.mem_cons_of_mem c hc')

/-- **Tags last as long as the pass.**  Whatever operations of one pass have led to a store:

* a property that an object of a class owns is a property of the class, with the same tag;
* every stored value has the tag of its property, and is in stored form;
* what an object shows under a name keeps its tag over all further operations of the pass. -/
theorem properties_keep_tags (h : InPass s) :
    (∀ o ∈ s.objects, ∀ className, o.className = some className → ∀ name p, (name, p) ∈ o.own.entries →
      ∃ c held, s.class? className = some c ∧ c.defaults.find? name = some held ∧ held.tag = p.tag) ∧
    (∀ p, s.Stores p → p.value.tag = p.tag ∧ p.value.normalized = p.value) ∧
    (∀ id name v cs, s.property id name = .ok v → (∀ c ∈ cs, c.staysInPass = true) →
      ∃ w, (s.performAll cs).property id name = .ok w ∧ w.tag = v.tag) := by
  have hs := h.stable
  refine ⟨hs.owned, fun p hp => ⟨(hs.settled p hp).tag, (hs.settled p hp).normalized⟩, ?_⟩
  intro id name v cs hread hcs
  obtain ⟨hshows, hs'⟩ := (hs.showsTag hread).performAll hs hcs
  exact hs'.exists_property hshows

/-- A class with two properties and an object that copies one of them, read before and after. -/
theorem properties_keep_tags_through_copy :
    InPass (performAll {} [.declareClass "C", .addClassProperty "C" "p" (.string "a"), .create (some "C")]) ∧
      ∃ w, (performAll {} [.declareClass "C", .addClassProperty "C" "p" (.string "a"), .create (some "C"),
          .addClassProperty "C" "q" (.boolean true), .setProperty 0 "p" (.string "b")]).property 0 "p" = .ok w ∧
        w.tag = .string := by
  have hpass : InPass (performAll {} [.declareClass "C", .addClassProperty "C" "p" (.string "a"),
      .create (some "C")]) :=
    .step (.create (some "C")) rfl (.step (.addClassProperty "C" "p" (.string "a")) rfl
      (.step (.declareClass "C") rfl .empty))
  refine ⟨hpass, ?_⟩
  exact (properties_keep_tags hpass).2.2 0 "p" (.string "a")
    [.addClassProperty "C" "q" (.boolean true), .setProperty 0 "p" (.string "b")] rfl (by decide)

/-! ## Writes -/

/-- A write is seen where it was made, and nowhere else. -/
theorem property_enterOwn {o : Object} {p : Property} (ho : s.objects[id]? = some o) (id' : Nat) (q : String) :
    (s.enterOwn id o name p).property id' q =
      if id' = id ∧ q = name then .ok p.value else s.property id' q := by
  have hlt : id < s.objects.size := (Array.getElem?_eq_some_iff.mp ho).1
  by_cases hid : id' = id
  · subst hid
    have hentered : (s.enterOwn id' o name p).objects[id']? = some { o with own := o.own.enter name p } :=
      Array.getElem?_setIfInBounds_self_of_lt hlt
    have hdefault : (s.enterOwn id' o name p).classDefault? { o with own := o.own.enter name p } q =
        s.classDefault? o q := rfl
    simp only [property, hentered, ho, shown?, hdefault, true_and]
    by_cases hq : q = name
    · subst hq
      simp
    · rw [Roster.find?_enter_of_ne _ hq, if_neg hq]
  · have hother : (s.enterOwn id o name p).objects[id']? = s.objects[id']? :=
      Array.getElem?_setIfInBounds_ne (Ne.symm hid)
    rw [if_neg fun h => hid h.1]
    simp only [property, hother]
    rfl

/-- No object owns two properties of one name. -/
def OwnsDistinct (s : Objects) : Prop := ∀ o ∈ s.objects, o.own.names.Nodup

theorem OwnsDistinct.push (h : s.OwnsDistinct) (className : Option String) :
    OwnsDistinct { s with objects := s.objects.push ⟨className, {}⟩ } := by
  intro o ho
  rcases Array.mem_push.mp ho with hold | rfl
  · exact h o hold
  · exact List.nodup_nil

theorem OwnsDistinct.setProperty (h : s.OwnsDistinct) (hok : s.setProperty id name value = .ok s') :
    s'.OwnsDistinct := by
  obtain ⟨o, ho, rfl, -⟩ := setProperty_eq_ok hok
  intro o' ho'
  rcases Array.mem_or_eq_of_mem_setIfInBounds ho' with hold | rfl
  · exact h o' hold
  · exact Roster.nodup_enter (h o (Array.mem_of_getElem? ho)) name _

theorem OwnsDistinct.perform (h : s.OwnsDistinct) (c : Command) : (s.perform c).2.OwnsDistinct := by
  cases c with
  | declareClass name =>
    refine settle_keeps h _ fun s' hok => ?_
    obtain ⟨-, rfl⟩ := declareClass_eq_ok hok
    exact h
  | addClassProperty className name default =>
    refine settle_keeps h _ fun s' hok => ?_
    obtain ⟨c, -, -, rfl⟩ := addClassProperty_eq_ok hok
    exact h
  | create className =>
    refine settle_keeps h _ fun (id, s') hok => ?_
    obtain ⟨-, rfl⟩ := create_eq_ok hok
    exact h.push className
  | setProperty id name value => exact settle_keeps h _ fun s' hok => h.setProperty hok
  | resetPass => exact h
  | clear => exact fun o ho => absurd ho (Array.not_mem_empty o)

theorem Reachable.ownsDistinct (h : Reachable s) : s.OwnsDistinct := by
  induction h with
  | empty => exact fun o ho => absurd ho (Array.not_mem_empty o)
  | step c _ ih => exact ih.perform c

/-- **A write of a property reaches that property alone**, in every store that operations lead to, ends of passes
included.  No object owns two properties of one name, and after a write

* the property reads as the stored form of the value;
* every other property of that object and every property of another reads as before, faults included;
* all classes with their defaults are as before;
* still no object owns two properties of one name. -/
theorem writes_are_isolated (h : Reachable s) :
    s.OwnsDistinct ∧
      ∀ id name value s', s.setProperty id name value = .ok s' →
        s'.property id name = .ok value.normalized ∧
        (∀ id' q, (id', q) ≠ (id, name) → s'.property id' q = s.property id' q) ∧
        s'.classes = s.classes ∧
        s'.OwnsDistinct := by
  refine ⟨h.ownsDistinct, fun id name value s' hok => ?_⟩
  have hdistinct := h.ownsDistinct.setProperty hok
  obtain ⟨o, ho, rfl, -⟩ := setProperty_eq_ok hok
  refine ⟨?_, ?_, rfl, hdistinct⟩
  · rw [property_enterOwn ho, if_pos ⟨rfl, rfl⟩]
    rfl
  · intro id' q hne
    rw [property_enterOwn ho, if_neg]
    rintro ⟨rfl, rfl⟩
    exact hne rfl

/-- Two objects of a class that the end of a pass has left, and a write to one of them. -/
theorem writes_are_isolated_after_pass :
    ∃ s s' : Objects, Reachable s ∧ s.class? "C" = none ∧ s.setProperty 0 "p" (.identifier "b") = .ok s' ∧
      s'.property 0 "p" = .ok (.string "b") ∧ s'.property 1 "p" = s.property 1 "p" := by
  have hreach : Reachable (performAll {} [.declareClass "C", .addClassProperty "C" "p" (.string "a"),
      .create (some "C"), .create (some "C"), .resetPass]) :=
    .step .resetPass (.step (.create (some "C")) (.step (.create (some "C"))
      (.step (.addClassProperty "C" "p" (.string "a")) (.step (.declareClass "C") .empty))))
  obtain ⟨hread, hothers, -⟩ := (writes_are_isolated hreach).2 0 "p" (.identifier "b") _ rfl
  exact ⟨_, _, hreach, rfl, rfl, hread, hothers 1 "p" (by decide)⟩

end Objects

end LineScript
