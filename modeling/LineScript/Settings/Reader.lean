/-
# Reading settings

Settings are written as a TOML document with one key for each option.  Options that are not written keep
their defaults, and other keys do not matter, but a value of the wrong kind makes all of the document wrong.
-/
import LineScript.Settings
import LineScript.Toml.Document

namespace LineScript

open LineScript.Toml

/-! ## Options -/

/-- The value of an option, or its default if nothing is written; `none` for a value of the wrong kind. -/
def option? {α : Type} (read : Item → Option α) (t : Tree) (key : String) (default : α) : Option α :=
  match t.root? key with
  | none => some default
  | some (.value item) => read item
  | some _ => none

/-- Read a text. -/
def textOf? : Item → Option String
  | .text s => some s
  | _ => none

/-- Read a truth value. -/
def truthOf? : Item → Option Bool
  | .scalar (.truth b) => some b
  | _ => none

/-- Read a count. -/
def countOf? : Item → Option Nat
  | .scalar (.integer (.ofNat n)) => some n
  | _ => none

/-! ## Settings -/

/-- The settings in a document. -/
def Settings.ofTree? (t : Tree) : Option Settings := do
  let d : Settings := {}
  return {
    displayName := ← option? textOf? t "display_name" d.displayName
    environment := ← option? textOf? t "environment" d.environment
    verbose := ← option? truthOf? t "verbose" d.verbose
    groupMessages := ← option? truthOf? t "group_messages" d.groupMessages
    tagMessages := ← option? truthOf? t "tag_messages" d.tagMessages
    timestampMessages := ← option? truthOf? t "timestamp_messages" d.timestampMessages
    reportErrors := ← option? truthOf? t "report_errors" d.reportErrors
    runToCompletion := ← option? truthOf? t "run_to_completion" d.runToCompletion
    budget := ← option? countOf? t "instructions_per_tick" d.budget
    tickInterval := ← option? countOf? t "tick_interval_ms" d.tickInterval
    allowExport := ← option? truthOf? t "allow_export" d.allowExport
    allowImport := ← option? truthOf? t "allow_import" d.allowImport
    haltOnDisallowed := ← option? truthOf? t "halt_on_disallowed" d.haltOnDisallowed }

/-- Read settings from a document. -/
def Settings.ofText? (text : String) : Except Fault Settings :=
  match (Tree.ofText? text).bind Settings.ofTree? with
  | none => .error .badSettings
  | some s => do
    s.check
    return s

end LineScript
