/-
# Reports and warnings

What a host learns about a fault that ended a run, and about cautions that did not.
-/
import LineScript.Fault

namespace LineScript

open LineScript.Decimal

/-- A fault with the place it arose in. -/
structure Report where
  kind : FaultKind
  message : String
  /-- The line that was running, counted from one. -/
  line : Option Nat := none
  file : String := ""
  /-- The running calls, the innermost first. -/
  stack : List String := []
  /-- The registered extensions, listed for internal faults only. -/
  extensions : List String := []
  deriving DecidableEq, Repr, Inhabited

/-- A report as it is shown. -/
def Report.display (r : Report) : String :=
  let isInternal := r.kind = .internal
  let opening := if isInternal then "!! internal error (not caused by the script itself) !!\n" else ""
  let place := match r.line with
    | some line => s!"\n  in {r.file}, line {naturalText line}"
    | none => s!"\n  in {r.file}"
  let calls := String.join (r.stack.map ("\n    at " ++ ·))
  let extensions :=
    if !isInternal then ""
    else if r.extensions.isEmpty then "\n  extensions: (none)"
    else "\n  extensions: " ++ String.intercalate ", " r.extensions
  opening ++ s!"{r.kind.name} error: {r.message}" ++ place ++ calls ++ extensions

/-- A caution with the place it arose in. -/
structure Warning where
  message : String
  /-- The line that was running, counted from one. -/
  line : Option Nat := none
  deriving DecidableEq, Repr, Inhabited

/-- A warning as it is shown. -/
def Warning.display (w : Warning) : String :=
  match w.line with
  | some line => s!"warning (line {naturalText line}): {w.message}"
  | none => s!"warning: {w.message}"

end LineScript
