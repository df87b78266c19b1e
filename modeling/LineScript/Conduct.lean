/-
# What the keywords of extensions do

The code behind a keyword of an extension belongs to the host.  It may look at the machine that runs it and ask
that machine for things, and in the end it comes back, with a fault or without.  `Conduct` is such code: an
answer, or a request and what follows upon the answer to it.
-/
import LineScript.Console
import LineScript.Mode
import LineScript.Objects
import LineScript.Report
import LineScript.Script
import LineScript.Settings
import LineScript.Symbols

namespace LineScript

/-- What a keyword can ask of the machine that runs it. -/
inductive Request
  | log (message : String)
  | provide (name : String) (value : Value)
  | execute (line : String)
  | tick
  | pause
  | stop
  | key (name : String)

/-- What a host can look at of a machine. -/
structure Look where
  settings : Settings
  script : Script
  loaded : Bool
  displayName : String
  budget : Nat
  strict : Bool
  symbols : Symbols
  objects : Objects
  /-- The names of the registered extensions. -/
  extensions : List String
  console : Console
  mode : Mode
  cursor : Nat
  lastReport : Option Report
  lastKey : Option String

/-- What a keyword does: it comes back with an answer, or it asks the machine for something and goes on as it
likes, with the answer to that and with what it sees of the machine. -/
inductive Conduct (View : Type)
  | answer (result : Except Fault Unit)
  | ask (r : Request) (next : Except Fault Unit → View → Conduct View)

instance {View : Type} : Inhabited (Conduct View) := ⟨.answer (.ok ())⟩

/-- Ask for something and go on, unless that fails. -/
def Conduct.demand {View : Type} (r : Request) (rest : Conduct View) : Conduct View :=
  .ask r fun
    | .ok (), _ => rest
    | .error f, _ => .answer (.error f)

end LineScript
