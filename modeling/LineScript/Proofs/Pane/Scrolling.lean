/-
# Views that scroll

The pane of the names follows new items as long as its view is at the bottom, and the pane of the script follows the
current line.  Both come to a few comparisons of the number of items with the number of rows.

* `atBottom_follow_iff`: a view at the bottom stays there at the next drawing exactly if that adds one item at most to
  what there was, or to what fits;
* `forall_atBottom_scrolls_iff`: the same of any number of drawings;
* `bottom_follows_one_item`: the statement about the names;
* `current_line_stays_in_view`: the statement about the script.
-/
import LineScript.Pane.Source
import LineScript.Pane.Symbols
import LineScript.Proofs.Machine.Calls
import Mathlib.Data.List.Chain

namespace LineScript.Pane

open LineScript.Screen

theorem visibleRows_pos (height : Nat) : 0 < visibleRows height := by
  unfold visibleRows
  omega

/-! ## The names -/

section Names

variable {s : SymbolsScroll} {total visible : Nat}

theorem draw_symbols (v : SymbolsView) (s : SymbolsScroll) (a : Area) (g : Grid) :
    (v.draw s a g).2 = s.follow v.items.length (visibleRows a.height) := rfl

/-- Every section has its heading, and a line that says so when it is empty. -/
theorem length_sectionItems (title : String) (items : List Item) :
    (sectionItems title items).length = max items.length 1 + 1 := by
  cases items with
  | nil => rfl
  | cons item rest =>
    show (item :: rest).length + 1 = max (rest.length + 1) 1 + 1
    rw [List.length_cons]
    omega

/-- What the pane shows: four headings, and a line for each running call, for a running iteration, and for each name. -/
theorem length_items (v : SymbolsView) : v.items.length =
    max v.symbols.calls.length 1 + v.symbols.iteration.toList.length + max v.symbols.locals.entries.length 1 +
      max v.symbols.globals.entries.length 1 + max v.symbols.functions.entries.length 1 + 4 := by
  simp only [SymbolsView.items, List.length_append, length_sectionItems, List.length_map, Option.length_toList,
    Option.isSome_map]
  omega

/-- Is a view at the bottom of the items that were last drawn? -/
def SymbolsScroll.AtBottom (s : SymbolsScroll) (visible : Nat) : Prop := s.offset = s.count - visible

instance (s : SymbolsScroll) (visible : Nat) : Decidable (s.AtBottom visible) := inferInstanceAs (Decidable (_ = _))

@[simp] theorem count_follow (s : SymbolsScroll) (total visible : Nat) : (s.follow total visible).count = total := rfl

/-- A view is full, if there are items enough. -/
theorem offset_follow_le (s : SymbolsScroll) (total visible : Nat) :
    (s.follow total visible).offset ≤ total - visible := by
  show (if s.count < total ∧ total - visible ≤ s.offset + 1 then total - visible
    else min s.offset (total - visible)) ≤ total - visible
  split <;> omega

/-- **What becomes of a view at the bottom.**  The margin of one item is measured at the old offset, so that it is used up
by the first new item that does not fit. -/
theorem offset_follow_of_atBottom (h : s.AtBottom visible) :
    (s.follow total visible).offset =
      if total ≤ max s.count visible + 1 then total - visible else s.offset := by
  unfold SymbolsScroll.AtBottom at h
  show (if s.count < total ∧ total - visible ≤ s.offset + 1 then total - visible
    else min s.offset (total - visible)) = _
  by_cases hfew : total ≤ max s.count visible + 1
  · -- Fewer items than before, or as many, leave no other place than the bottom.
    rw [if_pos hfew]
    split <;> omega
  · -- The new bottom is out of reach of the margin.
    rw [if_neg hfew, if_neg (by omega)]
    omega

/-- **A view at the bottom stays there** at the next drawing exactly if that adds one item at most. -/
theorem atBottom_follow_iff (h : s.AtBottom visible) :
    (s.follow total visible).AtBottom visible ↔ total ≤ max s.count visible + 1 := by
  have hoffset := @offset_follow_of_atBottom s total visible h
  unfold SymbolsScroll.AtBottom at h ⊢
  rw [hoffset, count_follow]
  split <;> omega

/-- The views that a pane leaves when it is drawn again and again. -/
def scrolls (a : Area) (g : Grid) : SymbolsScroll → List SymbolsView → List SymbolsScroll
  | _, [] => []
  | s, v :: rest => (v.draw s a g).2 :: scrolls a g (v.draw s a g).2 rest

/-- **A view at the bottom stays there all along** exactly if no drawing adds more than one item, by induction on the
drawings. -/
theorem forall_atBottom_scrolls_iff (a : Area) (g : Grid) (views : List SymbolsView)
    (h : s.AtBottom (visibleRows a.height)) :
    (∀ t ∈ scrolls a g s views, t.AtBottom (visibleRows a.height)) ↔
      (s.count :: views.map (·.items.length)).IsChain fun n n' => n' ≤ max n (visibleRows a.height) + 1 := by
  induction views generalizing s with
  | nil => simp [scrolls]
  | cons v rest ih =>
    have hstep : (v.draw s a g).2.AtBottom (visibleRows a.height) ↔
        v.items.length ≤ max s.count (visibleRows a.height) + 1 := by
      rw [draw_symbols]
      exact atBottom_follow_iff h
    rw [scrolls, List.forall_mem_cons, List.map_cons, List.isChain_cons_cons, hstep]
    -- If the first drawing leaves the bottom, neither side holds.
    apply and_congr_right
    intro hfew
    exact ih (hstep.mpr hfew)

end Names

/-- **The names follow one new item.**  Let the pane of the names be drawn twice at one height, with `n` items and then
with `n'`, whatever its view was before.  Then:

* both times there is no room left below the last item, unless there are too few of them;
* if the view is at the bottom the first time, it is at the bottom the second time exactly if there is at most one item
  more than there were, or than fit, and otherwise it stays where it was;
* if it is at the bottom the first time, it stays there at any later drawings exactly if none of them adds more than
  that. -/
theorem bottom_follows_one_item (v v' : SymbolsView) (s : SymbolsScroll) (a a' : Area) (g g' : Grid)
    (hheight : a'.height = a.height) :
    let visible := visibleRows a.height
    let n := v.items.length
    let n' := v'.items.length
    let first := (v.draw s a g).2
    let second := (v'.draw first a' g').2
    first.offset ≤ n - visible ∧ second.offset ≤ n' - visible ∧
    (first.offset = n - visible →
      (second.offset = n' - visible ↔ n' ≤ max n visible + 1) ∧
      (max n visible + 1 < n' → second.offset = first.offset)) ∧
    (first.offset = n - visible → ∀ later : List SymbolsView,
      (∀ t ∈ scrolls a g first later, t.offset = t.count - visible) ↔
        (n :: later.map (·.items.length)).IsChain fun k k' => k' ≤ max k visible + 1) := by
  intro visible n n' first second
  have hsecond : second = first.follow n' visible := by
    show (v'.draw first a' g').2 = _
    rw [draw_symbols, hheight]
  rw [hsecond]
  refine ⟨offset_follow_le s n visible, offset_follow_le first n' visible, ?_, ?_⟩
  · intro hbottom
    constructor
    · exact atBottom_follow_iff hbottom
    · intro hmany
      rw [offset_follow_of_atBottom hbottom]
      exact if_neg (Nat.not_le.mpr hmany)
  · intro hbottom later
    exact forall_atBottom_scrolls_iff a g later hbottom

/-- A script that declares three names. -/
def threeNames : Machine := .started "var a 1\nvar b 2\nvar c 3"

/-- What the pane of the names shows behind some ticks. -/
def namesBehind (ticks : Nat) : SymbolsView :=
  let m := (fun m => (Machine.tick m).2)^[ticks] threeNames
  { symbols := m.symbols, objects := m.objects }

/-- A pane with two rows, its view at the bottom of eight items, follows the second name. -/
theorem bottom_follows_one_item_of_second_name :
    let a : Area := ⟨0, 0, 20, 4⟩
    let first := ((namesBehind 1).draw { offset := 6 } a default).2
    let second := ((namesBehind 2).draw first a default).2
    (namesBehind 1).items.length = 8 ∧ (namesBehind 2).items.length = 9 ∧ first.offset = 8 - visibleRows a.height ∧
    second.offset = 9 - visibleRows a.height := by
  intro a first second
  have hitems : (namesBehind 1).items.length = 8 ∧ (namesBehind 2).items.length = 9 := by
    rw [length_items, length_items]
    decide +kernel
  have hbottom : first.offset = (namesBehind 1).items.length - visibleRows a.height := by
    show (SymbolsScroll.follow _ _ _).offset = _
    rw [hitems.1]
    decide
  have hfollows := (bottom_follows_one_item (namesBehind 1) (namesBehind 2) { offset := 6 } a a default default
    rfl).2.2.1 hbottom
  have hsecond := hfollows.1.mpr (by rw [hitems.1, hitems.2]; decide)
  rw [hitems.1] at hbottom
  rw [hitems.2] at hsecond
  exact ⟨hitems.1, hitems.2, hbottom, hsecond⟩

/-- It does not follow the second and the third name together: its view is at the bottom of eight items, and of ten items
it still shows the seventh and the eighth. -/
theorem growth_by_two_is_missed :
    let a : Area := ⟨0, 0, 20, 4⟩
    let first := ((namesBehind 1).draw { offset := 6 } a default).2
    let second := ((namesBehind 3).draw first a default).2
    (namesBehind 1).items.length = 8 ∧ (namesBehind 3).items.length = 10 ∧ first.offset = 8 - visibleRows a.height ∧
    second.offset = 6 ∧ second.offset ≠ 10 - visibleRows a.height := by
  intro a first second
  have hitems : (namesBehind 1).items.length = 8 ∧ (namesBehind 3).items.length = 10 := by
    rw [length_items, length_items]
    decide +kernel
  have hfirst : first.offset = 6 := by
    show (SymbolsScroll.follow _ _ _).offset = _
    rw [hitems.1]
    decide
  have hsecond : second.offset = 6 := by
    show (SymbolsScroll.follow (SymbolsScroll.follow _ _ _) _ _).offset = _
    rw [hitems.1, hitems.2]
    decide
  refine ⟨hitems.1, hitems.2, hfirst, hsecond, ?_⟩
  rw [hsecond]
  decide

/-! ## The script -/

section Script

variable {v : SourceView} {s : SourceScroll} {total current visible : Nat}

theorem targetRow_lt (s : SourceScroll) (hvisible : 0 < visible) : s.targetRow visible < visible := by
  unfold SourceScroll.targetRow
  omega

/-- The offset at which the current line is in its row, cut at both ends of the script. -/
theorem offset_follow_of_current (s : SourceScroll) (hcurrent : 0 < current ∧ current ≤ total) :
    (s.follow total current visible).offset = min (current - 1 - s.targetRow visible) (total - visible) := by
  show (if 0 < current ∧ current ≤ total then
      if visible < total then min (current - 1 - s.targetRow visible) (total - visible) else 0
    else s.offset) = _
  rw [if_pos hcurrent]
  split <;> omega

/-- The rows of a view are the lines from its offset on, with their numbers. -/
theorem getElem?_visible {offset count i : Nat} (hi : i < count) :
    (v.visible offset count)[i]? = v.lines[offset + i]?.map (v.line (offset + i + 1)) := by
  simp only [SourceView.visible, List.getElem?_map, List.getElem?_zipIdx, List.getElem?_take_of_lt hi,
    List.getElem?_drop, Option.map_map, Nat.zero_add]
  rfl

end Script

/-- **The current line stays in view.**  Let the pane of the script be drawn at any height, whatever its view and the row
of the current line were before.  If there is a current line:

* it is in one of the rows from the offset on, and that row shows it;
* the view does not run past the end of the script while lines above it are hidden. -/
theorem current_line_stays_in_view (v : SourceView) (s : SourceScroll) (a : Area) (g : Grid) (hfirst : 1 ≤ v.current)
    (hlast : v.current ≤ v.lines.length) :
    let visible := visibleRows a.height
    let offset := (v.draw s a g).2.offset
    offset ≤ v.current - 1 ∧ v.current - 1 < offset + visible ∧
    offset + visible ≤ max v.lines.length visible ∧
    (v.visible offset visible)[v.current - 1 - offset]? = v.lines[v.current - 1]?.map (v.line v.current) := by
  intro visible offset
  have hoffset : offset = min (v.current - 1 - s.targetRow visible) (v.lines.length - visible) :=
    offset_follow_of_current s ⟨hfirst, hlast⟩
  have hrow : s.targetRow visible < visible := targetRow_lt s (visibleRows_pos a.height)
  -- Cutting the offset at the end of the script moves the view up, but not past the last line, and so not past this one.
  have habove : offset ≤ v.current - 1 := by omega
  have hbelow : v.current - 1 < offset + visible := by omega
  refine ⟨habove, hbelow, by omega, ?_⟩
  rw [getElem?_visible (by omega), Nat.add_sub_cancel' habove, Nat.sub_add_cancel hfirst]

/-- In a pane without room for a row, with a row remembered from a higher one, the last of two lines is in view. -/
theorem current_line_stays_in_view_of_last :
    let v : SourceView := { lines := ["log a", "log b"], current := 2 }
    let s : SourceScroll := { offset := 0, row := some 20 }
    (1 ≤ v.current ∧ v.current ≤ v.lines.length) ∧ (v.draw s ⟨0, 0, 9, 2⟩ default).2.offset = 1 ∧
    (v.visible 1 1)[0]? = some (v.line 2 "log b") := by
  intro v s
  have hrange : 1 ≤ v.current ∧ v.current ≤ v.lines.length := by decide
  have hview := current_line_stays_in_view v s ⟨0, 0, 9, 2⟩ default hrange.1 hrange.2
  have hoffset : (v.draw s ⟨0, 0, 9, 2⟩ default).2.offset = 1 := rfl
  simp only [hoffset] at hview
  exact ⟨hrange, hoffset, hview.2.2.2⟩

end LineScript.Pane
