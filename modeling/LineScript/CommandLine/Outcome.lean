/-
# What a command leaves

A command writes lines of output and lines about errors, and ends well or with a failure.  A failure has a
message and may have a cause; the exit code tells the three ways to end apart.
-/
import LineScript.Machine.Basic

namespace LineScript

open LineScript.Text

/-! ## Failures -/

/-- Why a command ended badly. -/
structure Failure where
  message : String
  cause : Option String := none
  deriving DecidableEq, Repr, Inhabited

/-- A text with its lines moved to the right. -/
def indented (s : String) : String :=
  String.intercalate "\n" ((pieces '\n' s.toList).map fun line => "    " ++ String.ofList line)

/-- A failure as it is shown. -/
def Failure.display (f : Failure) : String :=
  "Error: " ++ f.message ++
    (match f.cause with
      | some cause => "\n\nCaused by:\n" ++ indented cause
      | none => "")

/-! ## Lines -/

/-- A line that a command writes. -/
inductive Line
  | output (text : String)
  | error (text : String)
  deriving DecidableEq, Repr, Inhabited

/-- The line that tells of an event. -/
def Event.line? : Event → Option Line
  | .logged text => some (.output text)
  | .warned w => some (.error w.display)
  | .failed r => some (.error r.display)
  | .called _ _ => none

/-- The text of a line of output. -/
def Line.output? : Line → Option String
  | .output text => some text
  | .error _ => none

/-- The text of a line about an error. -/
def Line.error? : Line → Option String
  | .output _ => none
  | .error text => some text

/-- Lines of text, each with its line break. -/
def joinLines (lines : List String) : String := String.join (lines.map (· ++ "\n"))

/-! ## Outcomes -/

/-- What a command leaves. -/
structure Outcome where
  lines : List Line := []
  failure : Option Failure := none
  deriving DecidableEq, Repr, Inhabited

namespace Outcome

/-- The exit code when a command line is not understood. -/
def usageCode : Nat := 2

/-- The exit code. -/
def code (o : Outcome) : Nat := if o.failure.isSome then 1 else 0

/-- All that is written to the output. -/
def output (o : Outcome) : String := joinLines (o.lines.filterMap Line.output?)

/-- All that is written about errors. -/
def errors (o : Outcome) : String :=
  joinLines (o.lines.filterMap Line.error? ++ (o.failure.map Failure.display).toList)

end Outcome

end LineScript
