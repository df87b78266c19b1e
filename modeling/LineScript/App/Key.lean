/-
# Keys

The keys that an app tells apart, and the names by which scripts know them.
-/
namespace LineScript

/-- A key that was pressed. -/
inductive Key
  | char (c : Char)
  /-- A letter with the control key. -/
  | control (c : Char)
  | enter
  | up
  | down
  | left
  | right
  | backspace
  | tab
  | escape
  /-- A key without use and name. -/
  | other
  deriving DecidableEq, Repr, Inhabited

namespace Key

/-- The character that a key types, whether the control key is held or not. -/
def char? : Key → Option Char
  | char c | control c => some c
  | _ => none

/-- The name by which scripts know a key. -/
def name? (k : Key) : Option String :=
  match k with
  | enter => some "enter"
  | up => some "up"
  | down => some "down"
  | left => some "left"
  | right => some "right"
  | backspace => some "backspace"
  | tab => some "tab"
  | escape => some "escape"
  | other => none
  | char c | control c => some (if c = ' ' then "space" else c.toString)

/-- The key that types a character, as a terminal sends it. -/
def ofChar (c : Char) : Key :=
  let n := c.toNat
  if c = '\r' then enter
  else if c = '\t' then tab
  else if n = 0x1B then escape
  else if n = 0x7F then backspace
  else if n = 0 then control ' '
  else if n < 0x1B then control (Char.ofNat (n - 1 + 'a'.toNat))
  else if n < 0x20 then control (Char.ofNat (n - 0x1C + '4'.toNat))
  else char c

/-- Does the key end the app in any case? -/
def interrupts (k : Key) : Bool := k = escape || k = control 'c'

end Key

end LineScript
