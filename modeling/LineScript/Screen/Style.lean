/-
# Styles and colours

A style changes the colours and the weight of what it is laid over; what it leaves open stays as it was.
-/
namespace LineScript.Screen

/-! ## Colours -/

/-- A colour. -/
inductive Color
  | rgb (red green blue : Nat)
  | black
  | white
  deriving DecidableEq, Repr, Inhabited

/-- A style; what it leaves open is `none` or not bold. -/
structure Style where
  foreground : Option Color := none
  background : Option Color := none
  bold : Bool := false
  deriving DecidableEq, Repr, Inhabited

namespace Style

/-- A style laid over another one. -/
def onto (s base : Style) : Style where
  foreground := s.foreground <|> base.foreground
  background := s.background <|> base.background
  bold := s.bold || base.bold

/-- The style of a colour of text. -/
def ofColor (c : Color) : Style := { foreground := some c }

/-- The style with a background. -/
def on (s : Style) (c : Color) : Style := { s with background := some c }

/-- The style in bold. -/
def inBold (s : Style) : Style := { s with bold := true }

@[simp] theorem onto_empty (s : Style) : s.onto {} = s := by
  cases s with | mk f b w => cases f <;> cases b <;> simp [onto]

@[simp] theorem empty_onto (s : Style) : ({} : Style).onto s = s := by
  cases s; simp [onto]

end Style

/-! ## The palette -/

namespace Palette

/-- Plain text. -/
def plain : Color := .rgb 205 214 244
/-- Groups, and a script that is over. -/
def blue : Color := .rgb 137 180 250
/-- Headings, strings, numbers, and a script that waits. -/
def orange : Color := .rgb 250 179 135
/-- Comments and all that steps back. -/
def grey : Color := .rgb 108 112 134
/-- A script that runs. -/
def green : Color := .rgb 166 227 161
/-- Faults. -/
def red : Color := .rgb 243 139 168
/-- Warnings, functions and the pane in focus. -/
def yellow : Color := .rgb 249 226 175
/-- References. -/
def pink : Color := .rgb 245 194 231
/-- Directives. -/
def mauve : Color := .rgb 203 166 247
/-- Types. -/
def teal : Color := .rgb 148 226 213
/-- The background of the current line and the status bar. -/
def night : Color := .rgb 50 50 70

end Palette

end LineScript.Screen
