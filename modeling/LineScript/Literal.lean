/-
# Literals

How a bare piece of text becomes a value.  `coerce` tries the rules in order: truth values, numbers,
groups written with bars, relative positions, the types that extensions registered, the latest first, and
last the plain identifier.  `classify` then gives some identifiers a tag of their own: comparators, and
the words of the literal classes that extensions registered.
-/
import LineScript.Value
import LineScript.Decimal.Read

namespace LineScript

open LineScript.Text LineScript.Decimal

/-! ## Types of extensions -/

/-- A type that an extension adds.  A plain type takes part in coercion; a literal class only gives
identifiers another tag. -/
structure WordType where
  name : String
  isClass : Bool
  accepts : String → Bool

instance : Inhabited WordType := ⟨⟨"", false, fun _ => false⟩⟩

/-! ## The rules -/

/-- The words that compare two values. -/
def comparators : List String := ["=", "!=", "<", ">", "in", "!in"]

/-- The offset of a relative position `~-?[0-9]+` that fits 64 signed bits. -/
def relpos? (s : String) : Option Int :=
  match s.toList with
  | '~' :: '-' :: ds =>
    if isDigits ds && digitsValue ds ≤ 0x8000000000000000 then some (-(digitsValue ds : Int)) else none
  | '~' :: ds => if isDigits ds && digitsValue ds < 0x8000000000000000 then some (digitsValue ds) else none
  | _ => none

/-- The double nearest to a number literal. -/
def literalNumber (s : String) : Float := (read? s).getD 0

/-- The latest plain type whose words include this one. -/
def plainType? (types : List WordType) (s : String) : Option WordType :=
  types.reverse.find? fun t => !t.isClass && t.accepts s

/-- The latest literal class whose words include this one. -/
def literalClass? (types : List WordType) (s : String) : Option WordType :=
  types.reverse.find? fun t => t.isClass && t.accepts s

/-- Coerce a text that is not a group. -/
def coerceSingle (types : List WordType) (s : String) : Value :=
  if s = "true" then .boolean true
  else if s = "false" then .boolean false
  else if isLiteral s then .number (literalNumber s)
  else match relpos? s with
    | some offset => .relpos offset
    | none => match plainType? types s with
      | some t => .text (.custom t.name) s
      | none => .identifier s

/-- The elements of a group written with bars, all of them non-empty. -/
def barGroup? (s : String) : Option (List String) :=
  let items := pieces '|' s.toList
  if 1 < items.length && items.all (!·.isEmpty) then some (items.map String.ofList) else none

/-- The value of a bare text. -/
def coerce (types : List WordType) (s : String) : Value :=
  match barGroup? s with
  | some items => .group (items.map (coerceSingle types))
  | none => coerceSingle types s

/-- Give an identifier the tag of comparators or of its literal class; other values stay. -/
def classify (types : List WordType) (v : Value) : Value :=
  match v with
  | .word _ s =>
    if s ∈ comparators then .word .comparator s
    else match literalClass? types s with
      | some t => .word (Tag.ofName t.name) s
      | none => v
  | _ => v

/-- The value of a bare token. -/
def wordValue (types : List WordType) (s : String) : Value :=
  classify types (coerce types s)

/-! ## Small laws -/

theorem coerce_of_no_bar (types : List WordType) {s : String} (h : '|' ∉ s.toList) :
    coerce types s = coerceSingle types s := by
  simp [coerce, barGroup?, pieces_of_not_mem h]

/-- Classification changes nothing of the stored form. -/
theorem classify_normalized (types : List WordType) (v : Value) :
    (classify types v).normalized = v.normalized := by
  unfold classify
  split
  · split
    · simp
    · split <;> simp
  · rfl

end LineScript
