/-
# The script on the screen

The pane shows the lines with their numbers and keeps the current line in the same row, as long as there
are lines to scroll.
-/
import LineScript.Pane.Highlight

namespace LineScript.Pane

open LineScript.Screen LineScript.Decimal

/-! ## Scrolling -/

/-- Where the view of the script is. -/
structure SourceScroll where
  /-- The number of lines above the view. -/
  offset : Nat := 0
  /-- The row that the current line should be in; the middle one unless it was set. -/
  row : Option Nat := none
  deriving DecidableEq, Repr, Inhabited

/-- The row in which the current line should be, within a view. -/
def SourceScroll.targetRow (s : SourceScroll) (visible : Nat) : Nat :=
  min (s.row.getD (visible / 2)) (visible - 1)

/-- Scroll a view of `visible` rows so that the current line, counted from one, is in its row.  Without a
current line the view stays. -/
def SourceScroll.follow (s : SourceScroll) (total current visible : Nat) : SourceScroll where
  offset :=
    if 0 < current ∧ current ≤ total then
      if visible < total then min (current - 1 - s.targetRow visible) (total - visible) else 0
    else s.offset
  row := some (s.targetRow visible)

/-! ## Lines -/

/-- What is known of the run. -/
structure SourceView where
  lines : List String
  /-- The current line, counted from one; zero for none. -/
  current : Nat := 0
  /-- The run has failed on the current line. -/
  failed : Bool := false
  focused : Bool := false

/-- The style of the number of a line. -/
def numberStyle (isCurrent failed : Bool) : Style :=
  if isCurrent then
    (Style.ofColor (if failed then Palette.red else Palette.orange)).inBold
  else .ofColor Palette.grey

/-- The style that the text of the current line takes. -/
def currentStyle (failed : Bool) (s : Style) : Style :=
  if failed then ((Style.ofColor .white).on Palette.red).inBold else s.on Palette.night

/-- A number at the right of four columns, with a blank behind it. -/
def lineLabel (n : Nat) : String :=
  let digits := naturalText n
  String.ofList (List.replicate (4 - digits.length) ' ') ++ digits ++ " "

/-- A line of the view. -/
def SourceView.line (v : SourceView) (number : Nat) (text : String) : List Span :=
  let isCurrent := number = v.current
  let content := highlight text
  let content :=
    if isCurrent then content.map fun s => { s with style := currentStyle v.failed s.style }
    else content
  ⟨lineLabel number, numberStyle isCurrent v.failed⟩ :: content

/-- The lines in a view. -/
def SourceView.visible (v : SourceView) (offset count : Nat) : List (List Span) :=
  ((v.lines.drop offset).take count).zipIdx.map fun (text, i) => v.line (offset + i + 1) text

/-- Draw the pane; the answer tells where its view is now. -/
def SourceView.draw (v : SourceView) (s : SourceScroll) (a : Area) (g : Grid) : Grid × SourceScroll :=
  let visible := visibleRows a.height
  let s := s.follow v.lines.length v.current visible
  let g := drawBox " Script " (borderStyle v.focused) a g
  (drawText .left {} a.inner g (v.visible s.offset visible), s)

end LineScript.Pane
