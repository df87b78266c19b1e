/-
# Catalogs

A catalog keeps things under names, and beside them the order in which the names were first entered.  Both are
kept by hand: an entry under a new name also comes last in the order, and dropping things drops their names.

* `find?_enter_self` and `find?_enter_of_ne` say what a catalog holds after an entry, `find?_map` after a change;
* `has_enter` and `has_filter` say which names it then has.
-/
import LineScript.Roster

namespace LineScript

/-- Things under names, and the names in order of first entry. -/
structure Catalog (α : Type) where
  table : Roster α := {}
  order : List String := []
  deriving Repr, Inhabited

namespace Catalog

variable {α : Type}

/-! ## Operations -/

/-- What is entered under a name. -/
def find? (c : Catalog α) (name : String) : Option α := c.table.find? name

/-- Is something entered under the name? -/
def has (c : Catalog α) (name : String) : Bool := (c.find? name).isSome

/-- Enter a thing under a name; a new name comes last. -/
def enter (c : Catalog α) (name : String) (a : α) : Catalog α where
  table := c.table.enter name a
  order := if c.has name then c.order else c.order ++ [name]

/-- Change every thing. -/
def map {β : Type} (f : α → β) (c : Catalog α) : Catalog β := ⟨c.table.map f, c.order⟩

/-- Keep some of the things, and the names of those. -/
def filter (p : α → Bool) (c : Catalog α) : Catalog α where
  table := c.table.filter p
  order := c.order.filter (c.table.filter p).has

/-- The names in order, each with its thing. -/
def entries (c : Catalog α) : List (String × α) :=
  c.order.filterMap fun name => (c.find? name).map (name, ·)

/-- A catalog can be shown as the roster of its entries. -/
instance : Coe (Catalog α) (Roster α) := ⟨fun c => ⟨c.entries⟩⟩

/-! ## Laws -/

@[simp] theorem find?_enter_self (c : Catalog α) (name : String) (a : α) :
    (c.enter name a).find? name = some a :=
  c.table.find?_enter_self name a

theorem find?_enter_of_ne (c : Catalog α) {name other : String} (h : other ≠ name) (a : α) :
    (c.enter name a).find? other = c.find? other :=
  c.table.find?_enter_of_ne h a

theorem find?_map {β : Type} (f : α → β) (c : Catalog α) (name : String) :
    (c.map f).find? name = (c.find? name).map f :=
  c.table.find?_map f name

/-- An entry adds its name. -/
theorem has_enter (c : Catalog α) (name : String) (a : α) (other : String) :
    (c.enter name a).has other = true ↔ other = name ∨ c.has other = true := by
  unfold has
  by_cases h : other = name
  · simp [h]
  · simp [find?_enter_of_ne c h, h]

@[simp] theorem has_map {β : Type} (f : α → β) (c : Catalog α) (name : String) :
    (c.map f).has name = c.has name := by
  rw [has, has, find?_map, Option.isSome_map]

/-- Only names that were there are kept. -/
theorem has_filter {c : Catalog α} {p : α → Bool} {name : String} (h : (c.filter p).has name = true) :
    c.has name = true :=
  Roster.has_filter h

end Catalog

end LineScript
