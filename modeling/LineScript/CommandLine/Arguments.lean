/-
# Arguments of the command line

There are two commands: `run FILE` with options, and `check FILE`.  An option with a value takes it from the
next argument or after an equals sign; each option may be given once, before or after the file, and behind
`--` nothing is an option any more.
-/
import LineScript.Text.Blank

namespace LineScript

open LineScript.Text

/-! ## Commands -/

/-- How to run a script. -/
structure RunOptions where
  /-- The file with the settings. -/
  config : Option String := none
  /-- How many statements a tick may run. -/
  budget : Option Nat := none
  /-- The time between two ticks in milliseconds. -/
  interval : Option Nat := none
  verbose : Bool := false
  deriving DecidableEq, Repr, Inhabited

/-- What a command line asks for. -/
inductive Command
  | run (file : String) (options : RunOptions)
  | check (file : String)
  deriving DecidableEq, Repr, Inhabited

/-! ## Single arguments -/

/-- Can this argument only be an option? -/
def isOption (arg : String) : Bool :=
  match arg.toList with
  | '-' :: _ :: _ => true
  | _ => false

/-- A file name is not empty. -/
def fileName? (arg : String) : Option String := if arg.isEmpty then none else some arg

/-- Take one more file. -/
def takeFile (file : Option String) (arg : String) : Option String :=
  if file.isNone then fileName? arg else none

/-- The files behind all options. -/
def takeFiles (file : Option String) (args : List String) : Option String :=
  match args with
  | [] => file
  | [arg] => takeFile file arg
  | _ => none

/-! ## Options -/

/-- Set an option that takes a value. -/
def RunOptions.set? (o : RunOptions) (name value : String) : Option RunOptions :=
  match name with
  | "--config" =>
    if o.config.isSome then none
    else (fileName? value).map fun file => { o with config := some file }
  | "--ipt" =>
    if o.budget.isSome then none
    else (natural? naturalBound value).map fun n => { o with budget := some n }
  | "--interval" =>
    if o.interval.isSome then none
    else (natural? naturalBound value).map fun n => { o with interval := some n }
  | _ => none

/-- Read the arguments of `run`. -/
def readRun (file : Option String) (o : RunOptions) : List String → Option Command
  | [] => file.map (.run · o)
  | "--" :: rest => (takeFiles file rest).map (.run · o)
  | arg :: rest =>
    if arg = "-v" ∨ arg = "--verbose" then
      if o.verbose then none else readRun file { o with verbose := true } rest
    else if isOption arg then
      match cutString '=' arg with
      | some (name, value) => (o.set? name value).bind fun o => readRun file o rest
      | none =>
        match rest with
        | [] => none
        | value :: more =>
          if isOption value then none else (o.set? arg value).bind fun o => readRun file o more
    else (takeFile file arg).bind fun file => readRun (some file) o rest

/-- Read the arguments of `check`. -/
def readCheck (file : Option String) : List String → Option Command
  | [] => file.map .check
  | "--" :: rest => (takeFiles file rest).map .check
  | arg :: rest =>
    if isOption arg then none else (takeFile file arg).bind fun file => readCheck (some file) rest

/-- Read a command line; `none` if it is not understood. -/
def Command.ofArguments? : List String → Option Command
  | "run" :: args => readRun none {} args
  | "check" :: args => readCheck none args
  | _ => none

end LineScript
