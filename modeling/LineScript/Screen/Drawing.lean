/-
# Drawing

Text is drawn as glyphs, clusters with a width and a style, and is cut at the right of its area.  There are
two ways to draw a line.  `drawLine` is for the items of lists: marks without width join the cell before
them, and the cells behind a wide glyph are cleared.  `drawCut` is for running text: marks without width are
left out, glyphs too wide for the area are skipped, and a line may stand at the right.
-/
import LineScript.Text.Blank
import LineScript.Text.Width
import LineScript.Screen.Grid

namespace LineScript.Screen

open LineScript.Text

/-! ## Styled text -/

/-- A text in one style. -/
structure Span where
  text : String
  style : Style := {}
  deriving DecidableEq, Repr, Inhabited

/-- A cluster ready to be drawn. -/
structure Glyph where
  symbol : String
  width : Nat
  style : Style
  deriving DecidableEq, Repr, Inhabited

/-- A control character. -/
def isControl (c : Char) : Bool := c.toNat < 0x20 || (0x7F ≤ c.toNat && c.toNat ≤ 0x9F)

/-- The glyphs of a span; control characters have none. -/
def Span.glyphs (s : Span) : List Glyph :=
  ((clusters s.text.toList).filter fun cluster => !cluster.any isControl).map fun cluster =>
    ⟨String.ofList cluster, clusterWidth cluster, s.style⟩

/-! ## Lines of lists -/

/-- Clear the cells that a wide glyph covers. -/
def clearCovered (g : Grid) (x y columns : Nat) : Grid :=
  (List.range columns).foldl (fun g i => g.change (x + i) y fun _ => {}) g

/-- Draw glyphs from column `x` of a row on. -/
def drawGlyphs (a : Area) (isFirst : Bool) (x : Nat) (g : Grid) : List Glyph → Grid
  | [] => g
  | q :: rest =>
    if a.right < x + q.width then g
    else
      let g :=
        if isFirst then g.put x a.y q.symbol q.style
        else if x = a.x then g.append x a.y q.symbol q.style
        else if q.width = 0 then g.append (x - 1) a.y q.symbol q.style
        else g.put x a.y q.symbol q.style
      drawGlyphs a false (x + q.width) (clearCovered g (x + 1) a.y (q.width - 1)) rest

/-- Draw a line of a list into the first row of an area. -/
def drawLine (g : Grid) (a : Area) : List Span → Grid
  | [] => g
  | s :: rest =>
    let w := textWidth s.text
    if w = 0 then drawLine g a rest
    else if a.isEmpty then g
    else drawLine (drawGlyphs a true a.x g s.glyphs) (a.indent w) rest

/-- An item of a list. -/
structure Item where
  lines : List (List Span)
  style : Style := {}
  deriving DecidableEq, Repr, Inhabited

/-- The item of a text, which may have several lines. -/
def Item.ofText (text : String) (style : Style) : Item where
  lines := if text.isEmpty then [[⟨"", {}⟩]] else (displayLines text).map fun line => [⟨line, {}⟩]
  style := style

/-- The item of one line. -/
def Item.ofLine (line : List Span) : Item := { lines := [line] }

/-- Draw lines below each other. -/
def drawLines (a : Area) (g : Grid) (lines : List (List Span)) : Grid :=
  (lines.zipIdx).foldl (fun g (line, i) => drawLine g (a.row i) line) g

/-- Draw items below each other, up to the first that does not fit. -/
def drawItems (a : Area) (g : Grid) : List Item → Grid
  | [] => g
  | item :: rest =>
    let height := item.lines.length
    if a.isEmpty || a.height < height then g
    else
      let top := { a with height := height }
      drawItems { a with y := a.y + height, height := a.height - height }
        (drawLines top (g.fill top item.style) item.lines) rest

/-! ## Running text -/

/-- The sides at which a line may stand. -/
inductive Side
  | left
  | right
  deriving DecidableEq, Repr

/-- The glyphs that fit into a width, `used` of which is taken. -/
def fitting (width used : Nat) : List Glyph → List Glyph
  | [] => []
  | q :: rest =>
    if width < q.width then fitting width used rest
    else if width < used + q.width then []
    else q :: fitting width (used + q.width) rest

/-- Put glyphs next to each other from column `x` of row `y` on. -/
def putGlyphs (y : Nat) (x : Nat) (g : Grid) : List Glyph → Grid
  | [] => g
  | q :: rest => putGlyphs y (x + q.width) (if q.width = 0 then g else g.put x y q.symbol q.style) rest

/-- Draw a line of running text into a row. -/
def drawCut (side : Side) (g : Grid) (a : Area) (line : List Span) : Grid :=
  let kept := fitting a.width 0 (line.flatMap Span.glyphs)
  let offset := match side with
    | .left => 0
    | .right => a.width - total (kept.map (·.width))
  putGlyphs a.y (a.x + offset) g kept

/-- Draw running text over a style. -/
def drawText (side : Side) (s : Style) (a : Area) (g : Grid) (lines : List (List Span)) : Grid :=
  (lines.take a.height).zipIdx.foldl (fun g (line, i) => drawCut side g (a.row i) line) (g.fill a s)

/-! ## Boxes -/

/-- The area inside of the border of a box. -/
def Area.inner (a : Area) : Area :=
  ⟨min (a.x + 1) a.right, min (a.y + 1) a.bottom, a.width - 2, a.height - 2⟩

/-- Draw the same symbol into all cells of an area. -/
def putAll (symbol : String) (s : Style) (g : Grid) (a : Area) : Grid :=
  (List.range a.height).foldl (fun g j =>
    (List.range a.width).foldl (fun g i => g.put (a.x + i) (a.y + j) symbol s) g) g

/-- Draw a border with a title; in an area without room for all of it the upper corners win. -/
def drawBox (title : String) (s : Style) (a : Area) (g : Grid) : Grid :=
  if a.isEmpty then g
  else
    let last := a.right - 1
    let low := a.bottom - 1
    let g := putAll "│" s g ⟨a.x, a.y, 1, a.height⟩
    let g := putAll "─" s g ⟨a.x, a.y, a.width, 1⟩
    let g := putAll "│" s g ⟨last, a.y, 1, a.height⟩
    let g := putAll "─" s g ⟨a.x, low, a.width, 1⟩
    let g := g.put last low "┘" s
    let g := g.put last a.y "┐" s
    let g := g.put a.x low "└" s
    let g := g.put a.x a.y "┌" s
    drawLine g ⟨a.x + 1, a.y, a.width - 2, 1⟩ [⟨title, {}⟩]

/-- The style of the border of a pane. -/
def borderStyle (focused : Bool) : Style :=
  if focused then (Style.ofColor Palette.yellow).inBold else .ofColor Palette.grey

/-- The number of rows inside of a box that a view counts with. -/
def visibleRows (height : Nat) : Nat := max (height - 2) 1

end LineScript.Screen
