/-
# Stores that are changed in place

The operations of a store answer with the whole store that follows, and nothing follows a fault.  A store that is
changed in place has no such safety: what an operation has written when it fails stays written.  `InPlace` is the type
of such operations, made of checks that can fail and of writes that cannot.

The writes to a table and to the order of its names are single ones here, and the lemmas say when they come to one
entry:

* `Roster.enter_enter`, `Roster.change_enter`: two writes under one name;
* `Roster.enter_eq_push`: a write behind all others;
* `Catalog.note_put`: a write to the table and one to the order.
-/
import LineScript.Catalog
import LineScript.Fault

namespace LineScript

/-- An operation that writes to a store as it goes.  What it has written before a fault stays. -/
abbrev InPlace (σ α : Type) := ExceptT Fault (StateM σ) α

namespace InPlace

variable {σ α β : Type}

/-! ## Running operations -/

theorem get_bind_apply (k : σ → InPlace σ β) (s : σ) : ((get : InPlace σ σ) >>= k) s = k s s := rfl

theorem modify_bind_apply (g : σ → σ) (k : PUnit → InPlace σ β) (s : σ) :
    ((modify g : InPlace σ PUnit) >>= k) s = k ⟨⟩ (g s) := rfl

/-- A sequence stops at the first fault, with what has been written. -/
theorem bind_apply (a : InPlace σ α) (k : α → InPlace σ β) (s : σ) :
    (a >>= k) s = match a s with
      | (.ok x, s') => k x s'
      | (.error f, s') => (.error f, s') := by
  show ExceptT.bindCont k (a s).1 (a s).2 = _
  rcases a s with ⟨_ | _, _⟩ <;> rfl

/-- A check that fails ends the operation, and one that succeeds writes nothing. -/
theorem ofExcept_bind_apply (e : Except Fault α) (k : α → InPlace σ β) (s : σ) :
    ((MonadExcept.ofExcept e : InPlace σ α) >>= k) s = match e with
      | .ok x => k x s
      | .error f => (.error f, s) := by
  cases e <;> rfl

end InPlace

/-! ## Writes to tables -/

namespace Roster

variable {α : Type} {r : Roster α} {name : String}

/-- Put a thing behind all others, without looking for its name. -/
def push (r : Roster α) (name : String) (a : α) : Roster α := ⟨r.entries ++ [(name, a)]⟩

/-- Change the thing under a name where it stands. -/
def change (r : Roster α) (name : String) (f : α → α) : Roster α :=
  match r.find? name with
  | some a => r.enter name (f a)
  | none => r

/-- Of two entries under one name the later one counts. -/
theorem enter_enter (r : Roster α) (name : String) (a b : α) : (r.enter name a).enter name b = r.enter name b := by
  unfold enter
  congr 1
  induction r.entries with
  | nil => simp [enterIn]
  | cons e rest ih =>
    obtain ⟨n, c⟩ := e
    by_cases h : n = name
    · simp [enterIn, h]
    · simp [enterIn, h, ih]

/-- A thing under a new name comes last. -/
theorem enter_eq_push (h : r.find? name = none) (a : α) : r.enter name a = r.push name a := by
  unfold enter push
  congr 1
  change r.entries.lookup name = none at h
  generalize r.entries = entries at h ⊢
  induction entries with
  | nil => rfl
  | cons e rest ih =>
    obtain ⟨n, c⟩ := e
    by_cases hn : name = n
    · simp [hn] at h
    · have hb : (name == n) = false := by simpa using hn
      rw [List.lookup_cons, hb] at h
      simp [enterIn, Ne.symm hn, ih h]

/-- A change enters the thing that it makes of the one that is there. -/
theorem change_eq_enter {a : α} (h : r.find? name = some a) (f : α → α) :
    r.change name f = r.enter name (f a) := by
  unfold change
  rw [h]

/-- A change of what has just been entered could have been made before. -/
theorem change_enter (r : Roster α) (name : String) (a : α) (f : α → α) :
    (r.enter name a).change name f = r.enter name (f a) := by
  rw [change_eq_enter (find?_enter_self r name a), enter_enter]

end Roster

namespace Catalog

variable {α : Type} {c : Catalog α} {name : String}

/-- Put a thing into the table and leave the order alone. -/
def put (c : Catalog α) (name : String) (a : α) : Catalog α := { c with table := c.table.enter name a }

/-- Put a name at the end of the order and leave the table alone. -/
def note (c : Catalog α) (name : String) : Catalog α := { c with order := c.order ++ [name] }

/-- Change the thing under a name in the table. -/
def change (c : Catalog α) (name : String) (f : α → α) : Catalog α := { c with table := c.table.change name f }

/-- A thing under a known name is entered into the table alone. -/
theorem put_eq_enter (h : (c.find? name).isSome = true) (a : α) : c.put name a = c.enter name a := by
  unfold put enter has
  rw [if_pos h]

/-- A thing under a new name is entered into the table and behind the order. -/
theorem note_put (h : c.find? name = none) (a : α) : (c.put name a).note name = c.enter name a := by
  have hhas : c.has name = false := by
    rw [has, h]
    rfl
  unfold put note enter
  rw [hhas]
  rfl

/-- It does not matter which of the two is written first. -/
theorem put_note (c : Catalog α) (name : String) (a : α) : (c.note name).put name a = (c.put name a).note name := rfl

/-- A change enters the thing that it makes of the one that is there. -/
theorem change_eq_enter {a : α} (h : c.find? name = some a) (f : α → α) :
    c.change name f = c.enter name (f a) := by
  rw [← put_eq_enter (by rw [h]; rfl)]
  unfold change put
  rw [Roster.change_eq_enter h]

/-- A change of what has just been entered could have been made before. -/
theorem change_enter (c : Catalog α) (name : String) (a : α) (f : α → α) :
    (c.enter name a).change name f = c.enter name (f a) := by
  unfold change enter
  rw [Roster.change_enter]

end Catalog

end LineScript
