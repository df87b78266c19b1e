/-
# The console

Messages of a script are kept here, so that a host can show them as it likes.  With grouping, a message that
repeats the one before it on the same line raises the count of that entry.

`Console.written` spells the entries out again, each as often as it was printed.
-/
import LineScript.Decimal.Shortest

namespace LineScript

open LineScript.Decimal

/-! ## Entries -/

/-- One entry of the console. -/
structure Entry where
  message : String
  /-- The time and the tag that stood before the message. -/
  lead : String := ""
  /-- The line that printed it, counted from zero. -/
  line : Option Nat := none
  /-- How many equal messages in a row it stands for. -/
  count : Nat := 1
  deriving DecidableEq, Repr, Inhabited

/-- An entry as it is shown. -/
def Entry.display (e : Entry) : String :=
  e.lead ++ e.message ++ (if 1 < e.count then " (x" ++ naturalText e.count ++ ")" else "")

/-- A time of day. -/
structure TimeOfDay where
  hour : Nat := 0
  minute : Nat := 0
  second : Nat := 0
  deriving DecidableEq, Repr, Inhabited

/-- A number in at least two digits. -/
def twoDigits (n : Nat) : String := if n < 10 then "0" ++ naturalText n else naturalText n

/-- A time of day as it stands before messages. -/
def TimeOfDay.display (t : TimeOfDay) : String :=
  twoDigits t.hour ++ ":" ++ twoDigits t.minute ++ ":" ++ twoDigits t.second

/-! ## The console -/

/-- What is kept of the messages, and how the next ones will be kept. -/
structure Console where
  entries : Array Entry := #[]
  grouping : Bool := false
  tag : Option String := none
  timestamps : Bool := false
  /-- The time of day, as the host last told it. -/
  now : TimeOfDay := {}
  deriving DecidableEq, Repr, Inhabited

namespace Console

/-- What stands before the next new message. -/
def lead (c : Console) : String :=
  (if c.timestamps then c.now.display ++ " " else "") ++
    (match c.tag with
      | some tag => "[" ++ tag ++ "] "
      | none => "")

/-- The entry that a message repeats. -/
def repeated? (c : Console) (message : String) (line : Option Nat) : Option Entry :=
  c.entries.back?.filter fun e => c.grouping && e.line == line && e.message == message

/-- The entry that a message makes or raises. -/
def entryOf (c : Console) (message : String) (line : Option Nat) : Entry :=
  match c.repeated? message line with
  | some e => { e with count := e.count + 1 }
  | none => { message := message, lead := c.lead, line := line }

/-- Print a message. -/
def print (c : Console) (message : String) (line : Option Nat) : Console :=
  let kept := if (c.repeated? message line).isSome then c.entries.pop else c.entries
  { c with entries := kept.push (c.entryOf message line) }

/-- What printing a message shows. -/
def shown (c : Console) (message : String) (line : Option Nat) : String :=
  (c.entryOf message line).display

/-- All entries as they are shown. -/
def output (c : Console) : List String := c.entries.toList.map Entry.display

/-- Forget all entries. -/
def clear (c : Console) : Console := { c with entries := #[] }

/-- The messages with their lines, each as often as it was printed. -/
def written (c : Console) : List (String × Option Nat) :=
  c.entries.toList.flatMap fun e => List.replicate e.count (e.message, e.line)

end Console

end LineScript
