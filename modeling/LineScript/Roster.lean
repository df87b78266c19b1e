/-
# Rosters

A roster holds things under names, in the order in which the names were first entered.  Entering a thing
under a name that is taken replaces the thing and keeps its place.

* `find?_enter_self` and `find?_enter_of_ne` say what a roster holds after an entry;
* `names_enter` says in which order, and `nodup_enter` that names stay distinct.
-/
namespace LineScript

/-- Things under distinct names, in order of first entry. -/
structure Roster (α : Type) where
  entries : List (String × α) := []
  deriving Repr, DecidableEq, Inhabited

namespace Roster

variable {α : Type}

/-! ## Operations -/

/-- The names in order of first entry. -/
def names (r : Roster α) : List String := r.entries.map (·.1)

/-- What is entered under a name. -/
def find? (r : Roster α) (name : String) : Option α := r.entries.lookup name

/-- Is something entered under the name? -/
def has (r : Roster α) (name : String) : Bool := (r.find? name).isSome

/-- Entries with the thing under `name` replaced, or one more entry at the end. -/
def enterIn (name : String) (a : α) : List (String × α) → List (String × α)
  | [] => [(name, a)]
  | (n, b) :: rest => if n = name then (n, a) :: rest else (n, b) :: enterIn name a rest

/-- Enter a thing under a name. -/
def enter (r : Roster α) (name : String) (a : α) : Roster α := ⟨enterIn name a r.entries⟩

/-- Change every thing. -/
def map {β : Type} (f : α → β) (r : Roster α) : Roster β := ⟨r.entries.map fun (n, a) => (n, f a)⟩

/-- Keep some of the things. -/
def filter (p : α → Bool) (r : Roster α) : Roster α := ⟨r.entries.filter fun (_, a) => p a⟩

/-! ## Laws -/

@[simp] theorem find?_empty (name : String) : (⟨[]⟩ : Roster α).find? name = none := rfl

theorem lookup_enterIn_self (name : String) (a : α) (l : List (String × α)) :
    (enterIn name a l).lookup name = some a := by
  induction l with
  | nil => simp [enterIn]
  | cons e rest ih =>
    obtain ⟨n, b⟩ := e
    by_cases h : n = name
    · simp [enterIn, h]
    · have hb : (name == n) = false := by simpa using Ne.symm h
      simp [enterIn, h, List.lookup_cons, hb, ih]

theorem lookup_enterIn_of_ne {name other : String} (h : other ≠ name) (a : α)
    (l : List (String × α)) : (enterIn name a l).lookup other = l.lookup other := by
  induction l with
  | nil =>
    have hb : (other == name) = false := by simpa using h
    simp [enterIn, List.lookup_cons, hb]
  | cons e rest ih =>
    obtain ⟨n, b⟩ := e
    by_cases hn : n = name
    · have hb : (other == n) = false := by simpa [hn] using h
      simp [enterIn, hn, List.lookup_cons, hn ▸ hb]
    · by_cases ho : other = n
      · simp [enterIn, hn, ho]
      · have hb : (other == n) = false := by simpa using ho
        simp [enterIn, hn, List.lookup_cons, hb, ih]

@[simp] theorem find?_enter_self (r : Roster α) (name : String) (a : α) :
    (r.enter name a).find? name = some a :=
  lookup_enterIn_self name a r.entries

theorem find?_enter_of_ne (r : Roster α) {name other : String} (h : other ≠ name) (a : α) :
    (r.enter name a).find? other = r.find? other :=
  lookup_enterIn_of_ne h a r.entries

theorem names_enterIn (name : String) (a : α) (l : List (String × α)) :
    (enterIn name a l).map (·.1) =
      if name ∈ l.map (·.1) then l.map (·.1) else l.map (·.1) ++ [name] := by
  induction l with
  | nil => simp [enterIn]
  | cons e rest ih =>
    obtain ⟨n, b⟩ := e
    by_cases h : n = name
    · simp [enterIn, h]
    · have h' : ¬ name = n := fun e => h e.symm
      by_cases hm : name ∈ rest.map (·.1) <;> simp_all [enterIn]

/-- A new name comes last, a known one keeps its place. -/
theorem names_enter (r : Roster α) (name : String) (a : α) :
    (r.enter name a).names = if name ∈ r.names then r.names else r.names ++ [name] :=
  names_enterIn name a r.entries

theorem nodup_enter {r : Roster α} (h : r.names.Nodup) (name : String) (a : α) :
    (r.enter name a).names.Nodup := by
  rw [names_enter]
  split
  · exact h
  · rename_i hn
    rw [List.nodup_append]
    refine ⟨h, by simp, ?_⟩
    intro x hx y hy
    simp only [List.mem_singleton] at hy
    rintro rfl
    exact hn (hy ▸ hx)

/-- The names are those under which something is entered. -/
theorem mem_names (r : Roster α) (name : String) : name ∈ r.names ↔ r.has name = true := by
  show name ∈ r.entries.map (·.1) ↔ (r.entries.lookup name).isSome = true
  induction r.entries with
  | nil => simp
  | cons e rest ih =>
    obtain ⟨n, a⟩ := e
    by_cases h : name = n
    · simp [h]
    · have hb : (name == n) = false := by simpa using h
      simp [List.lookup_cons, hb, h, ih]

/-- An entry adds nothing but itself. -/
theorem mem_enter {r : Roster α} {name : String} {a : α} {e : String × α}
    (h : e ∈ (r.enter name a).entries) : e ∈ r.entries ∨ e = (name, a) := by
  change e ∈ enterIn name a r.entries at h
  generalize r.entries = l at h ⊢
  induction l with
  | nil => exact Or.inr (List.mem_singleton.mp h)
  | cons first rest ih =>
    obtain ⟨n, b⟩ := first
    rw [enterIn] at h
    split at h
    · rename_i hname
      rcases List.mem_cons.mp h with rfl | hrest
      · exact Or.inr (by rw [hname])
      · exact Or.inl (List.mem_cons_of_mem _ hrest)
    · rcases List.mem_cons.mp h with rfl | hrest
      · exact Or.inl List.mem_cons_self
      · exact (ih hrest).imp_left (List.mem_cons_of_mem _)

/-- What is found stands among the entries. -/
theorem mem_of_find? {r : Roster α} {name : String} {a : α} (h : r.find? name = some a) :
    (name, a) ∈ r.entries := by
  obtain ⟨before, after, hentries, -⟩ := List.lookup_eq_some_iff.mp h
  rw [hentries]
  exact List.mem_append_right before List.mem_cons_self

/-- What is kept was entered. -/
theorem has_filter {r : Roster α} {p : α → Bool} {name : String} (h : (r.filter p).has name = true) :
    r.has name = true := by
  rw [← mem_names] at h ⊢
  exact (List.filter_sublist.map _).subset h

/-- What is entered changes with the roster. -/
theorem find?_map {β : Type} (f : α → β) (r : Roster α) (name : String) :
    (r.map f).find? name = (r.find? name).map f := by
  show (r.entries.map fun (n, a) => (n, f a)).lookup name = (r.entries.lookup name).map f
  induction r.entries with
  | nil => rfl
  | cons e rest ih =>
    obtain ⟨n, a⟩ := e
    by_cases h : name = n
    · simp [h]
    · have hb : (name == n) = false := by simpa using h
      simpa [List.lookup_cons, hb] using ih

@[simp] theorem names_map {β : Type} (f : α → β) (r : Roster α) : (r.map f).names = r.names := by
  simp [names, map, Function.comp_def]

end Roster

end LineScript
