/-
# Values and their tags

A value carries a tag, the name of its type.  Numbers, truth values, groups, objects and offsets have the
tag of their kind; a text may carry any tag, since extensions add types whose values are texts.

A bare word travels through a statement as `word` and is stored as plain text: `Value.normalized` is the
stored form, and `Value.normalized_normalized` says that storing twice changes nothing more.
-/
import LineScript.Decimal.Shortest

namespace LineScript

open LineScript.Decimal

/-! ## Tags -/

/-- The type of a value: one of the built-in ones, or one that an extension names. -/
inductive Tag
  | number | string | boolean | group | object | relpos | identifier | comparator
  | custom (name : String)
  deriving DecidableEq, Repr, Inhabited

/-- The name of a tag. -/
def Tag.name : Tag → String
  | number => "number"
  | string => "string"
  | boolean => "boolean"
  | group => "group"
  | object => "object"
  | relpos => "relpos"
  | identifier => "identifier"
  | comparator => "comparator"
  | custom name => name

/-- The tags that need no extension. -/
def Tag.builtin : List Tag :=
  [number, string, boolean, group, object, relpos, identifier, comparator]

/-- Does the tag need no extension? -/
def Tag.isBuiltin : Tag → Bool
  | custom _ => false
  | _ => true

/-- The tag of a name; an unknown name is a custom tag. -/
def Tag.ofName (name : String) : Tag :=
  (builtin.find? (·.name = name)).getD (custom name)

/-! ## Values -/

/-- A value of a script. -/
inductive Value
  | number (n : Float)
  | text (tag : Tag) (s : String)
  /-- A bare word, as long as it travels through a statement. -/
  | word (tag : Tag) (s : String)
  | boolean (b : Bool)
  | group (items : List Value)
  | object (id : Nat)
  /-- A position relative to the current line. -/
  | relpos (offset : Int)
  deriving Repr, Inhabited

namespace Value

/-- A plain text. -/
abbrev string (s : String) : Value := .text .string s

/-- A bare word without further type. -/
abbrev identifier (s : String) : Value := .word .identifier s

/-- The tag that the type discipline checks. -/
def tag : Value → Tag
  | number _ => .number
  | text t _ => t
  | word t _ => t
  | boolean _ => .boolean
  | group _ => .group
  | object _ => .object
  | relpos _ => .relpos

/-- The number that a value holds. -/
def number? : Value → Option Float
  | number n => some n
  | _ => none

/-- The text of a text or a word. -/
def text? : Value → Option String
  | text _ s | word _ s => some s
  | _ => none

/-- The elements of a group. -/
def group? : Value → Option (List Value)
  | group items => some items
  | _ => none

/-- The object that a value refers to. -/
def object? : Value → Option Nat
  | object id => some id
  | _ => none

theorem group?_eq_some {v : Value} {items : List Value} : v.group? = some items ↔ v = group items := by
  cases v <;> simp [group?]

theorem object?_eq_some {v : Value} {id : Nat} : v.object? = some id ↔ v = object id := by
  cases v <;> simp [object?]

/-- A whole number, moved into the range of 64 signed bits. -/
def integer? (v : Value) : Option Int := do
  let n ← v.number?
  let i ← toInt? n
  return clamp64 i

/-! ## Stored form -/

mutual

/-- The stored form of a value: words and tagged tokens become plain text, in groups too. -/
def normalized : Value → Value
  | word _ s => .string s
  | text .comparator s => .string s
  | text .identifier s => .string s
  | group items => .group (normalizedAll items)
  | v => v

/-- The stored forms of the elements of a group. -/
def normalizedAll : List Value → List Value
  | [] => []
  | v :: rest => v.normalized :: normalizedAll rest

end

/-! ## Equality and membership -/

mutual

/-- Do two values hold the same?  Tags do not count, and a word equals a text of the same characters. -/
def sameRaw : Value → Value → Bool
  | group a, group b => sameRawAll a b
  | text _ s, text _ t => s == t
  | text _ s, word _ t => s == t
  | word _ s, text _ t => s == t
  | word _ s, word _ t => s == t
  | number a, number b => a == b
  | boolean a, boolean b => a == b
  | object a, object b => a == b
  | relpos a, relpos b => a == b
  | _, _ => false

/-- Do two lists hold the same values in the same order? -/
def sameRawAll : List Value → List Value → Bool
  | [], [] => true
  | a :: as, b :: bs => a.sameRaw b && sameRawAll as bs
  | _, _ => false

end

/-- Is there an element that holds the same as `needle`?  Only groups have elements. -/
def contains (v needle : Value) : Bool :=
  match v with
  | group items => items.any (·.sameRaw needle)
  | _ => false

/-! ## Text -/

mutual

/-- The text that shows a value. -/
def display : Value → String
  | number n => Decimal.text n
  | text _ s => s
  | word _ s => s
  | boolean b => if b then "true" else "false"
  | group items => "[" ++ String.intercalate "|" (displayAll items) ++ "]"
  | object id => "<object #" ++ naturalText id ++ ">"
  | relpos offset => "~" ++ integerText offset

/-- The texts of the elements of a group. -/
def displayAll : List Value → List String
  | [] => []
  | v :: rest => v.display :: displayAll rest

end

/-! ## Small laws -/

@[simp] theorem tag_string (s : String) : (string s).tag = .string := rfl

@[simp] theorem normalized_string (s : String) : (string s).normalized = string s := by
  simp [normalized]

@[simp] theorem normalized_word (t : Tag) (s : String) : (word t s).normalized = string s := by
  simp [normalized]

@[simp] theorem normalized_group (items : List Value) :
    (group items).normalized = group (normalizedAll items) := by
  simp [normalized]

theorem normalizedAll_eq_map (items : List Value) :
    normalizedAll items = items.map normalized := by
  induction items with
  | nil => simp [normalizedAll]
  | cons v rest ih => simp [normalizedAll, ih]

mutual

/-- Storing twice changes nothing more. -/
theorem normalized_normalized : (v : Value) → v.normalized.normalized = v.normalized
  | number _ => by simp [normalized]
  | text t s => by cases t <;> simp [normalized]
  | word _ _ => by simp
  | boolean _ => by simp [normalized]
  | group items => by simp [normalizedAll_idem items]
  | object _ => by simp [normalized]
  | relpos _ => by simp [normalized]

/-- Storing the elements of a group twice changes nothing more. -/
theorem normalizedAll_idem :
    (items : List Value) → normalizedAll (normalizedAll items) = normalizedAll items
  | [] => by simp [normalizedAll]
  | v :: rest => by simp [normalizedAll, normalized_normalized v, normalizedAll_idem rest]

end

end Value

end LineScript
