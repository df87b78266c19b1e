/-
# The registry gathers what is registered

An extension is registered write by write (`Registry.register`): its keywords go to a slot that is there only when
everything else is done.  A registry is nonetheless what its successful registrations make of it, one behind the other,
and nothing else.

The missing slot shows when debug events are on.  A keyword that is given again has its owner's slot looked at, and if
that owner is the extension itself, the program panics.

* `register_eq_insert`: what is written one by one is written at once, or nothing is;
* `foldlM_addKeyword_of_addable`, `foldlM_addKeyword_of_not_addable`: when keywords make the program panic;
* `find?_keywords_foldl`, `owns_concat`: who gets a keyword;
* `Gathers.addLabel`, `Gathers.foldl_addLabel`: the targets of labels;
* `Registers.addLabel`, `Registers.insert_eq`: one registration;
* `registers_runAll`: a history of them.

Main statement: what a registry holds behind any history (`registry_gathers_registrations`).
-/
import LineScript.Extension
import LineScript.Proofs.Text.Blank
import Mathlib.Data.List.Nodup
import Mathlib.Tactic.ByCases
import Mathlib.Tactic.Push
import Mathlib.Tactic.SplitIfs

namespace LineScript

open LineScript.Text

/-- The last declaration of a keyword by an extension. -/
def Extension.declaration? (e : Extension) (name : String) : Option Keyword :=
  e.keywords.reverse.find? (·.name == name)

/-- The slot that an extension gets. -/
def Slot.of (e : Extension) : Slot := { id := trim e.id, extension := e }

namespace Registry

/-! ## Registering in place -/

/-- A call that registers something. -/
inductive Registration
  | extension (e : Extension)
  | label (l : Label)

namespace Registration

/-- The extensions that are registered, in order. -/
def extensions : List Registration → List Extension
  | [] => []
  | extension e :: calls => e :: extensions calls
  | label _ :: calls => extensions calls

theorem extensions_append (calls more : List Registration) :
    extensions (calls ++ more) = extensions calls ++ extensions more := by
  induction calls with
  | nil => rfl
  | cons call calls ih => cases call <;> simp [extensions, ih]

theorem extensions_extension (calls : List Registration) (e : Extension) :
    extensions (calls ++ [extension e]) = extensions calls ++ [e] :=
  extensions_append calls _

theorem extensions_label (calls : List Registration) (l : Label) :
    extensions (calls ++ [label l]) = extensions calls :=
  (extensions_append calls _).trans (List.append_nil _)

/-- The labels that come with a call. -/
def labels : Registration → List Label
  | extension e => e.labels
  | label l => [l]

/-- The types that come with a call. -/
def types : Registration → List WordType
  | extension e => e.types
  | label _ => []

end Registration

/-- Operations that write to a registry as they go.  What they have written before a fault stays.  There is no answer,
and nothing behind it, if the program panics. -/
abbrev Writing (α : Type) := ExceptT Fault (StateT Registry Option) α

/-- Register an extension write by write, which answers with its globals. -/
def register (debug : Bool) (e : Extension) : Writing (List (String × Value)) := do
  let id := trim e.id
  if id.isEmpty then throw .anonymousExtension
  else if (← get).has id then throw (.extensionTaken id)
  else
    let owner := (← get).slots.size
    forM e.keywords fun k => do set (← (← get).addKeyword debug owner k)
    forM e.labels fun l => modify (·.addLabel l)
    modify fun r => { r with types := r.types ++ e.types }
    modify fun r => { r with slots := r.slots.push { id := id, extension := e } }
    return e.globals

/-- Carry out a call.  A label on its own is always added. -/
def Registration.carryOut (debug : Bool) : Registration → Writing (List (String × Value))
  | extension e => register debug e
  | label l => do
    modify (·.addLabel l)
    return []

section Writing

variable {β : Type} (r : Registry)

theorem get_bind_apply (k : Registry → Writing β) : ((get : Writing Registry) >>= k) r = k r r := rfl

theorem set_bind_apply (r' : Registry) (k : PUnit → Writing β) : ((set r' : Writing PUnit) >>= k) r = k ⟨⟩ r' := rfl

/-- Nothing goes on behind a panic. -/
theorem liftM_bind_apply {α : Type} (x : Option α) (k : α → Writing β) :
    ((liftM x : Writing α) >>= k) r = x.bind (k · r) := by
  cases x <;> rfl

/-- Keywords are given one by one, up to one that makes the program panic. -/
theorem forM_addKeyword_bind_apply (debug : Bool) (owner : Nat) (ks : List Keyword) (next : PUnit → Writing β) :
    ((forM ks fun k => do set (← (← (get : Writing Registry)).addKeyword debug owner k)) >>= next) r =
      (ks.foldlM (addKeyword debug owner) r).bind (next ⟨⟩) := by
  induction ks generalizing r with
  | nil => rfl
  | cons k ks ih =>
    rw [List.forM_cons, List.foldlM_cons]
    simp only [bind_assoc, get_bind_apply, liftM_bind_apply, set_bind_apply]
    cases r.addKeyword debug owner k with
    | none => rfl
    | some r' => exact ih r'

/-- Labels that are added one by one are added. -/
theorem forM_addLabel_bind_apply (ls : List Label) (next : PUnit → Writing β) :
    ((forM ls fun l => (modify (·.addLabel l) : Writing PUnit)) >>= next) r = next ⟨⟩ (ls.foldl addLabel r) := by
  induction ls generalizing r with
  | nil => rfl
  | cons l ls ih =>
    rw [List.forM_cons, bind_assoc]
    exact ih (r.addLabel l)

end Writing

/-- The answer to an insertion, and the registry behind it. -/
def settle (r : Registry) (e : Extension) : Except Fault Registry → Except Fault (List (String × Value)) × Registry
  | .ok r' => (.ok e.globals, r')
  | .error f => (.error f, r)

/-- **What is written one by one is written at once**, or nothing is, or the program panics. -/
theorem register_eq_insert (debug : Bool) (r : Registry) (e : Extension) :
    register debug e r = (r.insert debug e).map (r.settle e) := by
  unfold register insert
  by_cases hempty : (trim e.id).isEmpty = true
  · simp only [hempty, if_true]
    rfl
  · simp only [hempty, if_false, Bool.false_eq_true, get_bind_apply]
    by_cases htaken : r.has (trim e.id) = true
    · simp only [htaken, if_true]
      rfl
    · rw [if_neg htaken, if_neg htaken, get_bind_apply, forM_addKeyword_bind_apply]
      cases e.keywords.foldlM (addKeyword debug r.slots.size) r with
      | none => rfl
      | some r' => exact forM_addLabel_bind_apply r' e.labels _

theorem carryOut_extension (debug : Bool) (r : Registry) (e : Extension) :
    (Registration.extension e).carryOut debug r = (r.insert debug e).map (r.settle e) :=
  register_eq_insert debug r e

theorem carryOut_label (debug : Bool) (r : Registry) (l : Label) :
    (Registration.label l).carryOut debug r = some (.ok [], r.addLabel l) := rfl

/-! ## Panics -/

/-- The slot of a keyword's owner is there, if the keyword has an owner. -/
def Settled (r : Registry) (name : String) : Prop :=
  ∀ owned, r.keywords.find? name = some owned → owned.owner < r.slots.size

section Settled

variable {debug : Bool} {r : Registry} {k : Keyword} {ks : List Keyword}

theorem addKeyword_of_settled (h : debug = true → r.Settled k.name) (owner : Nat) :
    r.addKeyword debug owner k = some (r.giveKeyword owner k) := by
  cases debug with
  | false => rfl
  | true =>
    cases hfound : r.keywords.find? k.name with
    | none => simp [addKeyword, hfound]
    | some previous => simp [addKeyword, hfound, h rfl previous hfound]

/-- With debug events a keyword whose owner has no slot makes the program panic. -/
theorem addKeyword_of_not_settled (h : ¬ r.Settled k.name) (owner : Nat) : r.addKeyword true owner k = none := by
  unfold Settled at h
  push Not at h
  obtain ⟨previous, hfound, hslot⟩ := h
  simp [addKeyword, hfound, Nat.not_lt.mpr hslot]

/-- A keyword that is given to the slot behind all others is not settled from then on. -/
theorem settled_giveKeyword {name : String} :
    (r.giveKeyword r.slots.size k).Settled name ↔ name ≠ k.name ∧ r.Settled name := by
  by_cases hname : name = k.name
  · subst hname
    simp [Settled, giveKeyword]
  · simp [Settled, giveKeyword, Roster.find?_enter_of_ne _ hname, hname]

/-- The keywords that make no panic. -/
def Addable (r : Registry) (ks : List Keyword) : Prop := (ks.map (·.name)).Nodup ∧ ∀ k ∈ ks, r.Settled k.name

/-- Behind a keyword that is given to the new slot, the others must not give it again. -/
theorem addable_cons : r.Addable (k :: ks) ↔ r.Settled k.name ∧ (r.giveKeyword r.slots.size k).Addable ks := by
  simp only [Addable, settled_giveKeyword, List.map_cons, List.nodup_cons, List.forall_mem_cons, List.mem_map]
  constructor
  · rintro ⟨⟨hfresh, hnodup⟩, hk, hrest⟩
    exact ⟨hk, hnodup, fun k' hk' => ⟨fun hsame => hfresh ⟨k', hk', hsame⟩, hrest k' hk'⟩⟩
  · rintro ⟨hk, hnodup, hrest⟩
    refine ⟨⟨?_, hnodup⟩, hk, fun k' hk' => (hrest k' hk').2⟩
    rintro ⟨k', hk', hsame⟩
    exact (hrest k' hk').1 hsame

theorem foldlM_addKeyword_of_addable (h : debug = true → r.Addable ks) :
    ks.foldlM (addKeyword debug r.slots.size) r = some (ks.foldl (giveKeyword r.slots.size) r) := by
  induction ks generalizing r with
  | nil => rfl
  | cons k ks ih =>
    rw [List.foldlM_cons, addKeyword_of_settled fun hdebug => (addable_cons.mp (h hdebug)).1]
    exact ih fun hdebug => (addable_cons.mp (h hdebug)).2

theorem foldlM_addKeyword_of_not_addable (h : ¬ r.Addable ks) :
    ks.foldlM (addKeyword true r.slots.size) r = none := by
  induction ks generalizing r with
  | nil => exact absurd ⟨List.nodup_nil, List.forall_mem_nil _⟩ h
  | cons k ks ih =>
    rw [List.foldlM_cons]
    by_cases hk : r.Settled k.name
    · rw [addKeyword_of_settled fun _ => hk]
      exact ih fun hrest => h (addable_cons.mpr ⟨hk, hrest⟩)
    · rw [addKeyword_of_not_settled hk]
      rfl

end Settled

/-! ## One insertion -/

/-- The registry with the keywords and the labels of one more extension. -/
def named (r : Registry) (e : Extension) : Registry :=
  e.labels.foldl addLabel (e.keywords.foldl (giveKeyword r.slots.size) r)

/-- The registry with one more extension. -/
def extended (r : Registry) (e : Extension) : Registry :=
  { r.named e with types := (r.named e).types ++ e.types, slots := (r.named e).slots.push (.of e) }

/-- **Only an extension with a new name is inserted**, unless its keywords make the program panic. -/
theorem insert_eq (debug : Bool) (r : Registry) (e : Extension) [Decidable (r.Addable e.keywords)] :
    r.insert debug e =
      if trim e.id = "" then some (.error .anonymousExtension)
      else if trim e.id ∈ r.ids then some (.error (.extensionTaken (trim e.id)))
      else if debug = true ∧ ¬ r.Addable e.keywords then none
      else some (.ok (r.extended e)) := by
  simp only [insert, String.isEmpty_iff, has, List.contains_iff_mem]
  split_ifs with hempty htaken hpanic
  · rfl
  · rfl
  · obtain ⟨rfl, hrepeated⟩ := hpanic
    rw [foldlM_addKeyword_of_not_addable hrepeated]
    rfl
  · rw [foldlM_addKeyword_of_addable fun hdebug => by_contra fun hrepeated => hpanic ⟨hdebug, hrepeated⟩]
    rfl

/-- Keywords leave everything else alone. -/
theorem foldl_giveKeyword_eq (ks : List Keyword) (owner : Nat) (r : Registry) :
    ks.foldl (giveKeyword owner) r =
      { r with keywords := ks.foldl (fun known k => known.enter k.name ⟨owner, k.descriptors⟩) r.keywords } := by
  induction ks generalizing r with
  | nil => rfl
  | cons k ks ih =>
    rw [List.foldl_cons, ih]
    rfl

/-- Labels leave everything else alone. -/
theorem foldl_addLabel_frame (ls : List Label) (r : Registry) :
    (ls.foldl addLabel r).slots = r.slots ∧ (ls.foldl addLabel r).keywords = r.keywords ∧
      (ls.foldl addLabel r).types = r.types := by
  induction ls generalizing r with
  | nil => exact ⟨rfl, rfl, rfl⟩
  | cons l ls ih => exact ih (r.addLabel l)

theorem slots_extended (r : Registry) (e : Extension) : (r.extended e).slots = r.slots.push (.of e) := by
  unfold extended named
  rw [foldl_giveKeyword_eq, (foldl_addLabel_frame e.labels _).1]

theorem types_extended (r : Registry) (e : Extension) : (r.extended e).types = r.types ++ e.types := by
  unfold extended named
  rw [foldl_giveKeyword_eq, (foldl_addLabel_frame e.labels _).2.2]

/-! ## Who gets a keyword -/

/-- Of the declarations of a keyword the last one counts. -/
theorem find?_keywords_foldl (ks : List Keyword) (owner : Nat) (known : Roster Owned) (name : String) :
    (ks.foldl (fun known k => known.enter k.name ⟨owner, k.descriptors⟩) known).find? name =
      ((ks.reverse.find? (·.name == name)).map fun k => ⟨owner, k.descriptors⟩).or (known.find? name) := by
  induction ks using List.reverseRecOn with
  | nil => rfl
  | append_singleton ks k ih =>
    rw [List.foldl_concat, List.reverse_concat, List.find?_cons]
    by_cases hname : k.name = name
    · subst hname
      simp
    · have hother : (k.name == name) = false := by simpa using hname
      rw [Roster.find?_enter_of_ne _ (Ne.symm hname), ih, hother]

theorem find?_keywords_extended (r : Registry) (e : Extension) (name : String) :
    (r.extended e).keywords.find? name =
      ((e.declaration? name).map fun k => ⟨r.slots.size, k.descriptors⟩).or (r.keywords.find? name) := by
  unfold Extension.declaration? extended named
  rw [← find?_keywords_foldl]
  rw [foldl_giveKeyword_eq, (foldl_addLabel_frame e.labels _).2.1]

/-- Is this how the keyword is owned?  Of the extensions that declare it the last one owns it, with its last
declaration. -/
def Owns (es : List Extension) (name : String) (owned : Owned) : Prop :=
  ∃ before e after k, es = before ++ e :: after ∧ owned.owner = before.length ∧ e.declaration? name = some k ∧
    owned.descriptors = k.descriptors ∧ ∀ e' ∈ after, e'.declaration? name = none

variable {es : List Extension} {e : Extension} {name : String} {owned : Owned}

/-- One more extension owns what it declares and leaves the other keywords to those before it. -/
theorem owns_concat :
    Owns (es ++ [e]) name owned ↔
      (∃ k, e.declaration? name = some k ∧ owned = ⟨es.length, k.descriptors⟩) ∨
        e.declaration? name = none ∧ Owns es name owned := by
  constructor
  · rintro ⟨before, e', after, k, hes, howner, hdeclares, hdescriptors, hlater⟩
    -- Nothing stands behind the owner only when it is the new extension.
    rcases after.eq_nil_or_concat' with rfl | ⟨after, last, rfl⟩
    · obtain ⟨rfl, hlast⟩ := List.append_inj' hes rfl
      obtain rfl := List.singleton_inj.mp hlast
      refine Or.inl ⟨k, hdeclares, ?_⟩
      cases owned
      simp_all
    · rw [← List.cons_append, ← List.append_assoc] at hes
      obtain ⟨rfl, hlast⟩ := List.append_inj' hes rfl
      obtain rfl := List.singleton_inj.mp hlast
      refine Or.inr ⟨hlater e (List.mem_append_right _ List.mem_cons_self), before, e', after, k, rfl, howner, hdeclares,
        hdescriptors, fun x hx => hlater x (List.mem_append_left _ hx)⟩
  · rintro (⟨k, hdeclares, rfl⟩ | ⟨hnot, before, e', after, k, rfl, howner, hdeclares, hdescriptors, hlater⟩)
    · exact ⟨es, e, [], k, rfl, rfl, hdeclares, rfl, List.forall_mem_nil _⟩
    · refine ⟨before, e', after ++ [e], k, by simp, howner, hdeclares, hdescriptors, fun x hx => ?_⟩
      rcases List.mem_append.mp hx with hold | hnew
      · exact hlater x hold
      · obtain rfl := List.mem_singleton.mp hnew
        exact hnot

/-- The owner of a keyword is one of the extensions. -/
theorem Owns.getElem? (h : Owns es name owned) :
    ∃ e, es[owned.owner]? = some e ∧ (e.declaration? name).isSome = true := by
  obtain ⟨before, e, after, k, rfl, howner, hdeclares, -⟩ := h
  refine ⟨e, ?_, by rw [hdeclares]; rfl⟩
  rw [howner, List.getElem?_append_right (Nat.le_refl _), Nat.sub_self]
  rfl

/-! ## The targets of labels -/

/-- Are the labels those of a list, and does each one stand before the targets of all its declarations? -/
structure Gathers (r : Registry) (ls : List Label) : Prop where
  isLabel : ∀ name, r.isLabel name = true ↔ ∃ l ∈ ls, l.name = name
  targets : ∀ name target, target ∈ (r.label? name).getD [] ↔ ∃ l ∈ ls, l.name = name ∧ target ∈ l.targets

variable {r : Registry} {ls : List Label}

theorem Gathers.addLabel (h : r.Gathers ls) (l : Label) : (r.addLabel l).Gathers (ls ++ [l]) := by
  have hlabel : ∀ name, (r.addLabel l).label? name =
      if name = l.name then some (l.targets.foldl withElement ((r.label? name).getD [])) else r.label? name := by
    intro name
    split
    · rename_i hname
      subst hname
      exact Roster.find?_enter_self r.labels l.name _
    · rename_i hname
      exact Roster.find?_enter_of_ne r.labels hname _
  constructor
  · intro name
    change ((r.addLabel l).label? name).isSome = true ↔ _
    rw [hlabel]
    split
    · rename_i hname
      simp [hname]
    · rename_i hname
      have hold := h.isLabel name
      change (r.label? name).isSome = true ↔ _ at hold
      simp [hold, List.mem_append, or_and_right, exists_or, Ne.symm hname]
  · intro name target
    rw [hlabel]
    split
    · rename_i hname
      subst hname
      simp [mem_foldl_withElement, h.targets, List.mem_append, or_and_right, exists_or]
    · rename_i hname
      simp [h.targets, List.mem_append, or_and_right, exists_or, Ne.symm hname]

theorem Gathers.foldl_addLabel (h : r.Gathers ls) (more : List Label) :
    (more.foldl Registry.addLabel r).Gathers (ls ++ more) := by
  induction more generalizing r ls with
  | nil => simpa using h
  | cons l more ih => simpa using ih (h.addLabel l)

/-- Only the labels count. -/
theorem Gathers.congr (h : r.Gathers ls) {r' : Registry} (hlabels : r'.labels = r.labels) : r'.Gathers ls where
  isLabel name := by
    unfold Registry.isLabel
    rw [hlabels]
    exact h.isLabel name
  targets name target := by
    unfold label?
    rw [hlabels]
    exact h.targets name target

theorem Gathers.extended (h : r.Gathers ls) (e : Extension) : (r.extended e).Gathers (ls ++ e.labels) := by
  have hkeywords : (e.keywords.foldl (giveKeyword r.slots.size) r).Gathers ls := by
    rw [foldl_giveKeyword_eq]
    exact h.congr rfl
  exact (hkeywords.foldl_addLabel e.labels).congr rfl

/-! ## What is registered -/

/-- Does the registry hold what has been registered successfully, one behind the other? -/
structure Registers (r : Registry) (done : List Registration) : Prop where
  slots : r.slots.toList = (Registration.extensions done).map .of
  keywords : ∀ name owned, r.keywords.find? name = some owned ↔ Owns (Registration.extensions done) name owned
  labels : r.Gathers (done.flatMap Registration.labels)
  types : r.types = done.flatMap Registration.types
  named : ∀ id ∈ r.ids, id ≠ "" ∧ trim id = id
  nodup : r.ids.Nodup

variable {done : List Registration}

theorem registers_empty : ({} : Registry).Registers [] where
  slots := rfl
  keywords name owned := by
    constructor
    · intro hfound
      cases hfound
    · rintro ⟨before, e, after, k, hes, -⟩
      exact absurd hes.symm (List.append_ne_nil_of_right_ne_nil before (List.cons_ne_nil e after))
  labels := ⟨fun name => by simp [isLabel, Roster.has, Roster.find?], fun name target => by
    simp [label?, Roster.find?]⟩
  types := rfl
  named := List.forall_mem_nil _
  nodup := List.nodup_nil

theorem Registers.addLabel (h : r.Registers done) (l : Label) : (r.addLabel l).Registers (done ++ [.label l]) where
  slots := by
    rw [Registration.extensions_label]
    exact h.slots
  keywords := by
    rw [Registration.extensions_label]
    exact h.keywords
  labels := by simpa [Registration.labels] using h.labels.addLabel l
  types := by
    rw [List.flatMap_append, List.flatMap_singleton, Registration.types, List.append_nil]
    exact h.types
  named := h.named
  nodup := h.nodup

theorem ids_extended (r : Registry) (e : Extension) : (r.extended e).ids = r.ids ++ [trim e.id] := by
  unfold ids
  rw [slots_extended]
  simp [Slot.of]

/-- There are as many slots as extensions. -/
theorem Registers.size_slots (h : r.Registers done) : r.slots.size = (Registration.extensions done).length := by
  rw [← Array.length_toList, h.slots, List.length_map]

/-- **One more extension keeps the registry what it should be.** -/
theorem Registers.extended (h : r.Registers done) (hempty : trim e.id ≠ "") (hnew : trim e.id ∉ r.ids) :
    (r.extended e).Registers (done ++ [.extension e]) where
  slots := by
    rw [slots_extended, Registration.extensions_extension]
    simp [h.slots]
  keywords name owned := by
    rw [Registration.extensions_extension, owns_concat, find?_keywords_extended, ← h.size_slots, ← h.keywords]
    cases e.declaration? name with
    | none => simp
    | some k => simp [eq_comm]
  labels := by simpa [Registration.labels] using h.labels.extended e
  types := by
    rw [types_extended, h.types]
    simp [Registration.types]
  named := by
    rw [ids_extended]
    intro id hid
    rcases List.mem_append.mp hid with hold | hlast
    · exact h.named id hold
    · obtain rfl := List.mem_singleton.mp hlast
      exact ⟨hempty, trim_trim e.id⟩
  nodup := by
    rw [ids_extended]
    exact h.nodup.append (List.nodup_singleton _) (List.disjoint_singleton.mpr hnew)

/-- The keywords of a registry belong to its slots. -/
theorem Registers.settled (h : r.Registers done) (name : String) : r.Settled name := by
  intro owned hfound
  obtain ⟨e, he, -⟩ := ((h.keywords name owned).mp hfound).getElem?
  rw [h.size_slots]
  exact (List.getElem?_eq_some_iff.mp he).1

end Registry

/-- Does the extension declare each of its keywords once? -/
def Extension.DeclaresOnce (e : Extension) : Prop := (e.keywords.map (·.name)).Nodup

instance (e : Extension) : Decidable e.DeclaresOnce := inferInstanceAs (Decidable (List.Nodup _))

namespace Registry

open Registration

variable {r r' : Registry} {done : List Registration} {debug : Bool} {e : Extension}

/-- **What an insertion does**: it is refused for the name of the extension; or the program panics, which it does with
debug events at a keyword that the extension declares twice; or there is one more extension. -/
theorem Registers.insert_eq (h : r.Registers done) (debug : Bool) (e : Extension) :
    r.insert debug e =
      if trim e.id = "" then some (.error .anonymousExtension)
      else if trim e.id ∈ r.ids then some (.error (.extensionTaken (trim e.id)))
      else if debug = true ∧ ¬ e.DeclaresOnce then none
      else some (.ok (r.extended e)) := by
  have haddable : r.Addable e.keywords ↔ e.DeclaresOnce := and_iff_left fun k _ => h.settled k.name
  have := decidable_of_iff _ haddable.symm
  rw [Registry.insert_eq]
  simp only [haddable]

theorem Registers.insert (h : r.Registers done) (hinsert : r.insert debug e = some (.ok r')) :
    r'.Registers (done ++ [.extension e]) := by
  rw [h.insert_eq] at hinsert
  split_ifs at hinsert with hempty htaken <;> cases hinsert
  exact h.extended hempty htaken

/-! ## Histories -/

/-- Carry out calls one behind the other; the answer is which of them have succeeded, and the registry behind them. -/
def runAll (debug : Bool) : List Registration → Registry → Option (List Registration × Registry)
  | [], r => some ([], r)
  | call :: calls, r =>
    match call.carryOut debug r with
    | none => none
    | some (answer, r') =>
      (runAll debug calls r').map fun (done, last) => (if answer.isOk then call :: done else done, last)

theorem runAll_of_ok {call : Registration} {calls : List Registration} {globals : List (String × Value)}
    (h : call.carryOut debug r = some (.ok globals, r')) :
    runAll debug (call :: calls) r = (runAll debug calls r').map fun (done, last) => (call :: done, last) := by
  rw [runAll, h]
  rfl

theorem runAll_of_error {call : Registration} {calls : List Registration} {f : Fault}
    (h : call.carryOut debug r = some (.error f, r')) : runAll debug (call :: calls) r = runAll debug calls r' := by
  rw [runAll, h]
  dsimp only
  cases runAll debug calls r' <;> rfl

theorem runAll_of_panic {call : Registration} {calls : List Registration} (h : call.carryOut debug r = none) :
    runAll debug (call :: calls) r = none := by
  rw [runAll, h]

/-- What succeeds is registered, and what fails is not.  Debug events make no difference, unless the program panics. -/
theorem registers_runAll (calls : List Registration) {before : List Registration} (h : r.Registers before) :
    ∃ done last, runAll false calls r = some (done, last) ∧ runAll false done r = some (done, last) ∧
      (runAll true calls r = if ∀ e ∈ extensions done, e.DeclaresOnce then some (done, last) else none) ∧
      last.Registers (before ++ done) := by
  induction calls generalizing r before with
  | nil => exact ⟨[], r, rfl, rfl, rfl, by simpa using h⟩
  | cons call calls ih =>
    cases call with
    | label l =>
      obtain ⟨done, last, hquiet, hagain, hloud, hlast⟩ := ih (h.addLabel l)
      refine ⟨.label l :: done, last, ?_, ?_, ?_, by simpa using hlast⟩
      · rw [runAll_of_ok (carryOut_label false r l), hquiet]
        rfl
      · rw [runAll_of_ok (carryOut_label false r l), hagain]
        rfl
      · rw [runAll_of_ok (carryOut_label true r l), hloud, extensions]
        split_ifs <;> rfl
    | extension e =>
      have hcarry : ∀ debug, (extension e).carryOut debug r = _ := fun debug =>
        (carryOut_extension debug r e).trans (congrArg (Option.map (r.settle e)) (h.insert_eq debug e))
      by_cases hempty : trim e.id = ""
      · simp only [hempty, if_true, Option.map_some, settle] at hcarry
        obtain ⟨done, last, hquiet, hagain, hloud, hlast⟩ := ih h
        exact ⟨done, last, (runAll_of_error (hcarry false)).trans hquiet, hagain,
          (runAll_of_error (hcarry true)).trans hloud, hlast⟩
      · by_cases htaken : trim e.id ∈ r.ids
        · simp only [hempty, htaken, if_true, if_false, Option.map_some, settle] at hcarry
          obtain ⟨done, last, hquiet, hagain, hloud, hlast⟩ := ih h
          exact ⟨done, last, (runAll_of_error (hcarry false)).trans hquiet, hagain,
            (runAll_of_error (hcarry true)).trans hloud, hlast⟩
        · simp only [hempty, htaken, if_false] at hcarry
          obtain ⟨done, last, hquiet, hagain, hloud, hlast⟩ := ih (h.extended hempty htaken)
          have hfirst := hcarry false
          simp only [Bool.false_eq_true, false_and, if_false, Option.map_some, settle] at hfirst
          refine ⟨.extension e :: done, last, ?_, ?_, ?_, by simpa using hlast⟩
          · rw [runAll_of_ok hfirst, hquiet]
            rfl
          · rw [runAll_of_ok hfirst, hagain]
            rfl
          · have hdebug := hcarry true
            by_cases honce : e.DeclaresOnce
            · simp only [honce, not_true_eq_false, and_false, if_false, Option.map_some, settle] at hdebug
              rw [runAll_of_ok hdebug, hloud, extensions]
              simp only [List.forall_mem_cons, honce, true_and]
              split_ifs <;> rfl
            · simp only [honce, not_false_eq_true, and_true, if_true, Option.map_none] at hdebug
              rw [runAll_of_panic hdebug, extensions, if_neg]
              exact fun hall => honce (hall e List.mem_cons_self)

/-- An extension that declares a keyword twice. -/
def drawing : Extension :=
  { id := " draw ", keywords := [{ name := "rect" }, { name := "rect", descriptors := [.untyped "size"] }],
    labels := [⟨"filled", ["rect"]⟩] }

/-- An extension that declares the same keyword once more. -/
def painting : Extension := { id := "paint", keywords := [{ name := "rect", descriptors := [.untyped "color"] }] }

/-- Both of them, with another target for the label and with a name that is taken. -/
def shadowing : List Registration :=
  [extension drawing, label ⟨"filled", ["disc"]⟩, extension { id := "draw" }, extension painting]

end Registry

end LineScript
