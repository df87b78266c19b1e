/-
# The status bar

The left half tells the stage of the run, the script and the last message, the right half which keys do what.
-/
import LineScript.Machine.Basic
import LineScript.Text.Case
import LineScript.Screen.Drawing

namespace LineScript.Pane

open LineScript.Screen LineScript.Decimal

/-- What the bar shows. -/
structure StatusView where
  name : String
  mode : Mode
  /-- The current line, counted from one; zero for none. -/
  line : Nat
  budget : Nat
  message : String

/-- The colour of a stage. -/
def modeColor : Mode → Color
  | .failed => Palette.red
  | .running => Palette.green
  | .waiting _ | .paused => Palette.orange
  | .finished => Palette.blue
  | .idle => Palette.grey

/-- The left half. -/
def StatusView.leftLine (v : StatusView) : List Span :=
  let line := if v.line = 0 then "-" else naturalText v.line
  [ ⟨" " ++ Text.upper v.mode.display ++ " ", ((Style.ofColor .black).on (modeColor v.mode)).inBold⟩,
    ⟨s!" {v.name} | line {line} | {naturalText v.budget}/tick ",
      (Style.ofColor Palette.grey).on Palette.night⟩,
    ⟨" " ++ v.message ++ " ",
      (Style.ofColor (if v.mode = .failed then Palette.red else Palette.plain)).on Palette.night⟩ ]

/-- The keys and what they do. -/
def keyHints : Mode → List (String × String)
  | .waiting (.key _) => [("any key", "deliver"), ("esc", "quit")]
  | _ =>
    [(" ⎵ ", "pause/resume"), (" n ", "tick"), (" r ", "restart"), ("tab", "focus"), (" q ", "quit")]

/-- One key and what it does. -/
def hintSpans (key action : String) : List Span :=
  [⟨key, (Style.ofColor .black).on Palette.grey⟩,
    ⟨" " ++ action ++ " ", (Style.ofColor Palette.plain).on Palette.night⟩]

/-- What stands between two hints. -/
def hintGap : List Span :=
  [⟨"│", (Style.ofColor Palette.grey).on Palette.night⟩,
    ⟨" ", (Style.ofColor Palette.plain).on Palette.night⟩]

/-- The right half. -/
def StatusView.rightLine (v : StatusView) : List Span :=
  List.intercalate hintGap ((keyHints v.mode).map fun (key, action) => hintSpans key action)

/-- Draw the bar. -/
def StatusView.draw (v : StatusView) (a : Area) (g : Grid) : Grid :=
  let base : Style := ({} : Style).on Palette.night
  let (left, right) := a.splitColumns 50
  drawText .right base right (drawText .left base left g [v.leftLine]) [v.rightLine]

end LineScript.Pane
