/-
# Grids of cells

A screen is a grid of cells.  Each cell shows a cluster in a style; a wide cluster covers the cell to its
right as well.  Changes outside of the grid are lost.

`Grid.rows` and `Grid.runs` tell what a grid shows.
-/
import LineScript.Screen.Style

namespace LineScript.Screen

/-! ## Cells and areas -/

/-- A cell of a screen. -/
structure Cell where
  symbol : String := " "
  style : Style := {}
  deriving DecidableEq, Repr, Inhabited

/-- A rectangle of cells. -/
structure Area where
  x : Nat
  y : Nat
  width : Nat
  height : Nat
  deriving DecidableEq, Repr, Inhabited

namespace Area

/-- Are there no cells in the area? -/
def isEmpty (a : Area) : Bool := a.width = 0 || a.height = 0

/-- The first column to the right of the area. -/
def right (a : Area) : Nat := a.x + a.width

/-- The first row below the area. -/
def bottom (a : Area) : Nat := a.y + a.height

/-- One row of the area. -/
def row (a : Area) (i : Nat) : Area := ⟨a.x, a.y + i, a.width, 1⟩

/-- The area without some columns at its left. -/
def indent (a : Area) (columns : Nat) : Area := { a with x := a.x + columns, width := a.width - columns }

/-- A part of a length in percent, halves rounded up. -/
def percent (length share : Nat) : Nat := (length * share + 50) / 100

/-- The left part of an area and what is left of it. -/
def splitColumns (a : Area) (share : Nat) : Area × Area :=
  let w := percent a.width share
  ({ a with width := w }, a.indent w)

/-- The upper part of an area and what is left of it. -/
def splitRows (a : Area) (share : Nat) : Area × Area :=
  let h := percent a.height share
  ({ a with height := h }, { a with y := a.y + h, height := a.height - h })

end Area

/-! ## Grids -/

/-- A grid of cells, row by row. -/
structure Grid where
  width : Nat
  height : Nat
  cells : Array Cell
  deriving DecidableEq, Repr, Inhabited

namespace Grid

/-- A grid of unset cells. -/
def blank (width height : Nat) : Grid := ⟨width, height, Array.replicate (width * height) {}⟩

/-- All of the grid. -/
def area (g : Grid) : Area := ⟨0, 0, g.width, g.height⟩

/-- Is there a cell at this place? -/
def has (g : Grid) (x y : Nat) : Bool := x < g.width && y < g.height

/-- The cell at a place. -/
def cell (g : Grid) (x y : Nat) : Cell := if g.has x y then g.cells.getD (y * g.width + x) {} else {}

/-- Change a cell. -/
def change (g : Grid) (x y : Nat) (f : Cell → Cell) : Grid :=
  if g.has x y then { g with cells := g.cells.modify (y * g.width + x) f } else g

/-- Show a cluster in a cell, its style laid over the one that is there. -/
def put (g : Grid) (x y : Nat) (symbol : String) (s : Style) : Grid :=
  g.change x y fun c => ⟨symbol, s.onto c.style⟩

/-- Show something more in a cell. -/
def append (g : Grid) (x y : Nat) (symbol : String) (s : Style) : Grid :=
  g.change x y fun c => ⟨c.symbol ++ symbol, s.onto c.style⟩

/-- Lay a style over a cell. -/
def restyle (g : Grid) (x y : Nat) (s : Style) : Grid :=
  g.change x y fun c => { c with style := s.onto c.style }

/-- Lay a style over an area. -/
def fill (g : Grid) (a : Area) (s : Style) : Grid :=
  (List.range a.height).foldl (fun g j =>
    (List.range a.width).foldl (fun g i => g.restyle (a.x + i) (a.y + j) s) g) g

/-! ## What a grid shows -/

/-- The cells of a row. -/
def rowCells (g : Grid) (y : Nat) : List Cell := (List.range g.width).map fun x => g.cell x y

/-- The text of each row. -/
def rows (g : Grid) : List String :=
  (List.range g.height).map fun y => String.join ((g.rowCells y).map (·.symbol))

/-- Columns of equal style. -/
structure Run where
  row : Nat
  start : Nat
  /-- The first column behind the run. -/
  stop : Nat
  style : Style
  deriving DecidableEq, Repr, Inhabited

/-- The runs of a row, from a column on, `run` being the one before that column. -/
def runsFrom (y : Nat) (run : Option Run) (x : Nat) : List Cell → List Run
  | [] => run.toList
  | c :: rest =>
    match run with
    | some r =>
      if r.style = c.style then runsFrom y (some { r with stop := x + 1 }) (x + 1) rest
      else r :: runsFrom y (some ⟨y, x, x + 1, c.style⟩) (x + 1) rest
    | none => runsFrom y (some ⟨y, x, x + 1, c.style⟩) (x + 1) rest

/-- The runs of all rows but those without style. -/
def runs (g : Grid) : List Run :=
  ((List.range g.height).flatMap fun y => runsFrom y none 0 (g.rowCells y)).filter (·.style ≠ {})

/-! ## Small laws -/

@[simp] theorem width_change (g : Grid) (x y : Nat) (f : Cell → Cell) :
    (g.change x y f).width = g.width := by
  unfold change; split <;> rfl

@[simp] theorem height_change (g : Grid) (x y : Nat) (f : Cell → Cell) :
    (g.change x y f).height = g.height := by
  unfold change; split <;> rfl

@[simp] theorem length_rows (g : Grid) : g.rows.length = g.height := by simp [rows]

end Grid

end LineScript.Screen
