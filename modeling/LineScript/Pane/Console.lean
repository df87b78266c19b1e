/-
# The console on the screen

The pane shows what the script printed, then warnings, and last the report of a failed run.
-/
import LineScript.Console
import LineScript.Report
import LineScript.Screen.Drawing

namespace LineScript.Pane

open LineScript.Screen LineScript.Text

/-- What the pane shows. -/
structure ConsoleView where
  output : List String
  warnings : List String := []
  report : Option Report := none
  focused : Bool := false

/-- The items of the pane. -/
def ConsoleView.items (v : ConsoleView) : List Item :=
  v.output.map (Item.ofText · (.ofColor Palette.plain)) ++
    v.warnings.map (Item.ofText · (.ofColor Palette.yellow)) ++
    (v.report.map fun r =>
      (displayLines r.display).map (Item.ofText · (Style.ofColor Palette.red).inBold)).getD []

/-- The offset closest to a wanted one at which a view of `visible` rows is full, if there is enough. -/
def clampOffset (total visible wanted : Nat) : Nat := min wanted (total - visible)

/-- Draw the pane; the answer tells how many items are above the view now.  An empty console does not move
the view. -/
def ConsoleView.draw (v : ConsoleView) (scroll : Nat) (a : Area) (g : Grid) : Grid × Nat :=
  let border := borderStyle v.focused
  if v.items.isEmpty then
    let grey := Style.ofColor Palette.grey
    let g := drawBox " Console " border a (g.fill a grey)
    (drawText .left grey a.inner g [[⟨"(no output)", {}⟩]], scroll)
  else
    let visible := visibleRows a.height
    let offset := clampOffset v.items.length visible scroll
    let g := drawBox " Console " border a g
    (drawItems (a.inner.indent 1) g ((v.items.drop offset).take visible), offset)

end LineScript.Pane
