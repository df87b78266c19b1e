/-
# Which extensions are taken

An extension whose keyword is running is out of its slot, and all others are in theirs.  `Registry.Occupied` says so of
the slots of running keywords, the innermost first.

* `Registers.occupied`: nothing is taken of what has just been registered;
* `Occupied.take_of_mem`, `Occupied.take_of_not_mem`: an extension that is taken is refused, and any other one comes
  out of its slot;
* `take_eq_ok`: what taking does; it changes what is busy, and not what is registered (`take_extensions`);
* `restore_take`: what is put back makes the registry what it was.
-/
import LineScript.Proofs.Registry.Registration
import Mathlib.Data.List.Perm.Subperm

namespace LineScript

open LineScript.Text

namespace Registry

/-- The registered extensions, in order. -/
def extensions (r : Registry) : List Extension := r.slots.toList.map (·.extension)

/-- The slots hold these extensions, and those of the running keywords are taken, each of them once.  Every keyword
belongs to one of the slots. -/
structure Occupied (r : Registry) (es : List Extension) (running : List Nat) : Prop where
  slot : ∀ owner, r.slots[owner]? = es[owner]?.map fun e => { Slot.of e with busy := decide (owner ∈ running) }
  nodup : running.Nodup
  known : ∀ owner ∈ running, owner < es.length
  owned : ∀ name owned, r.keywords.find? name = some owned → owned.owner < es.length

variable {r r' : Registry} {es : List Extension} {running : List Nat} {e : Extension} {owner : Nat}

/-- **Between registrations every extension is in its slot.** -/
theorem Registers.occupied {done : List Registration} (h : r.Registers done) :
    r.Occupied (Registration.extensions done) [] where
  slot owner := by
    rw [← Array.getElem?_toList, h.slots, List.getElem?_map]
    rfl
  nodup := List.nodup_nil
  known := List.forall_mem_nil _
  owned name owned hfound := by
    obtain ⟨e, he, -⟩ := ((h.keywords name owned).mp hfound).getElem?
    exact (List.getElem?_eq_some_iff.mp he).1

/-- There are as many slots as extensions. -/
theorem Occupied.size_slots (h : r.Occupied es running) : r.slots.size = es.length := by
  have hsame : ∀ owner, r.slots.size ≤ owner ↔ es.length ≤ owner := by
    intro owner
    rw [← Array.getElem?_eq_none_iff, h.slot owner, Option.map_eq_none_iff, List.getElem?_eq_none_iff]
  exact Nat.le_antisymm ((hsame _).mpr (Nat.le_refl _)) ((hsame _).mp (Nat.le_refl _))

/-- **An extension that is taken cannot be taken again.** -/
theorem Occupied.take_of_mem (h : r.Occupied es running) (he : es[owner]? = some e) (hmem : owner ∈ running) :
    r.take owner = .error (.extensionReentered (trim e.id)) := by
  have hslot := h.slot owner
  rw [he] at hslot
  simp [take, hslot, hmem, Slot.of]

/-- **An extension that is not taken comes out of its slot**, and is the only one that does. -/
theorem Occupied.take_of_not_mem (h : r.Occupied es running) (he : es[owner]? = some e) (hfree : owner ∉ running) :
    ∃ r', r.take owner = .ok (e, r') ∧ r'.Occupied es (owner :: running) := by
  have hslot := h.slot owner
  rw [he] at hslot
  have hlt := (List.getElem?_eq_some_iff.mp he).1
  refine ⟨{ r with slots := r.slots.setIfInBounds owner { Slot.of e with busy := true } },
    by simp [take, hslot, hfree, Slot.of], ?_, List.nodup_cons.mpr ⟨hfree, h.nodup⟩, ?_, h.owned⟩
  · intro other
    rw [Array.getElem?_setIfInBounds]
    split
    · rename_i hsame
      subst hsame
      rw [if_pos (h.size_slots ▸ hlt), he]
      simp
    · rename_i hother
      rw [h.slot other]
      simp [List.mem_cons, Ne.symm hother]
  · intro other hmem
    rcases List.mem_cons.mp hmem with rfl | hold
    · exact hlt
    · exact h.known other hold

/-- What comes out of its slot has not been taken before. -/
theorem Occupied.of_take_eq_ok (h : r.Occupied es running) (hlt : owner < es.length)
    (htake : r.take owner = .ok (e, r')) : owner ∉ running ∧ es[owner]? = some e ∧ r'.Occupied es (owner :: running) := by
  have he := List.getElem?_eq_getElem hlt
  have hfree : owner ∉ running := by
    intro hmem
    rw [h.take_of_mem he hmem] at htake
    cases htake
  obtain ⟨r'', htaken, hoccupied⟩ := h.take_of_not_mem he hfree
  rw [htaken] at htake
  cases htake
  exact ⟨hfree, he, hoccupied⟩

/-- As long as an extension is in its slot, fewer keywords are running than there are extensions. -/
theorem Occupied.length_lt (h : r.Occupied es running) (hlt : owner < es.length) (hfree : owner ∉ running) :
    running.length < es.length := by
  have hnodup : (owner :: running).Nodup := List.nodup_cons.mpr ⟨hfree, h.nodup⟩
  have hknown : owner :: running ⊆ List.range es.length := by
    intro other hmem
    rw [List.mem_range]
    rcases List.mem_cons.mp hmem with rfl | hold
    · exact hlt
    · exact h.known other hold
  have hlength := (hnodup.subperm hknown).length_le
  rw [List.length_range] at hlength
  exact hlength

/-! ## Taking and restoring -/

/-- **What taking does**: the extension of a slot comes out of it, and the slot is busy from then on. -/
theorem take_eq_ok (h : r.take owner = .ok (e, r')) : ∃ slot, r.slots[owner]? = some slot ∧ slot.busy = false ∧
    e = slot.extension ∧ r' = { r with slots := r.slots.setIfInBounds owner { slot with busy := true } } := by
  unfold take at h
  split at h
  · cases h
  · rename_i slot hslot
    split at h
    · cases h
    · rename_i hbusy
      cases h
      exact ⟨slot, hslot, by simpa using hbusy, rfl, rfl⟩

theorem take_keywords (h : r.take owner = .ok (e, r')) : r'.keywords = r.keywords := by
  obtain ⟨slot, -, -, -, rfl⟩ := take_eq_ok h
  rfl

/-- Taking changes what is busy, not what is registered. -/
theorem take_extensions (h : r.take owner = .ok (e, r')) : r'.extensions = r.extensions := by
  obtain ⟨slot, hslot, -, -, rfl⟩ := take_eq_ok h
  unfold extensions
  refine List.ext_getElem? fun other => ?_
  simp only [List.getElem?_map, Array.getElem?_toList, Array.getElem?_setIfInBounds]
  split
  · rename_i hsame
    subst hsame
    rw [if_pos (Array.getElem?_eq_some_iff.mp hslot).1, hslot]
    rfl
  · rfl

theorem restore_extensions (r : Registry) (owner : Nat) : (r.restore owner).extensions = r.extensions := by
  unfold extensions restore
  refine List.ext_getElem? fun other => ?_
  simp only [List.getElem?_map, Array.getElem?_toList, Array.getElem?_modify]
  split
  · rw [Option.map_map]
    rfl
  · rfl

theorem mem_extensions_of_take (h : r.take owner = .ok (e, r')) : e ∈ r.extensions := by
  obtain ⟨slot, hslot, -, rfl, -⟩ := take_eq_ok h
  exact List.mem_map_of_mem (Array.mem_toList_iff.mpr (Array.mem_of_getElem? hslot))

/-- **What is put back makes the registry what it was.** -/
theorem restore_take (h : r.take owner = .ok (e, r')) : r'.restore owner = r := by
  obtain ⟨slot, hslot, hfree, -, rfl⟩ := take_eq_ok h
  have hslots : (r.slots.setIfInBounds owner { slot with busy := true }).modify owner
      (fun slot => { slot with busy := false }) = r.slots := by
    refine Array.ext_getElem? fun other => ?_
    rw [Array.getElem?_modify, Array.getElem?_setIfInBounds]
    split
    · rename_i hsame
      subst hsame
      rw [if_pos (Array.getElem?_eq_some_iff.mp hslot).1, hslot, Option.map_some, ← hfree]
    · rfl
  unfold restore
  rw [hslots]

end Registry

end LineScript
