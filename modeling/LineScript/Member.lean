/-
# Members of values

A reference may reach one level into the value that it names: `\items.0\` is the first element of a group,
and `\player.hp\` a property of an object.  `resolver` looks references up in the two stores.
-/
import LineScript.Symbols
import LineScript.Objects

namespace LineScript

open LineScript.Text

/-- The element of a group at a written position. -/
def elementAt (base accessor : String) (items : List Value) : Except Fault Value :=
  match natural? naturalBound accessor with
  | none => .error (.groupPosition base accessor)
  | some i =>
    match items[i]? with
    | some v => .ok v
    | none => .error (.positionOutside i base items.length)

/-- The property of an object, named after the variable that holds the object. -/
def propertyOf (objects : Objects) (base accessor : String) (id : Nat) : Except Fault Value :=
  match objects.property id accessor with
  | .error (.propertyMissing _) => .error (.objectLacks base accessor)
  | result => result

/-- Look a reference up. -/
def resolver (symbols : Symbols) (objects : Objects) : Resolver := fun r =>
  match cutString '.' r.name with
  | none => symbols.lookup r.name r.reach
  | some (base, accessor) => do
    match ← symbols.lookup base r.reach with
    | .group items => elementAt base accessor items
    | .object id => propertyOf objects base accessor id
    | other => throw (.noMember base other.tag accessor)

end LineScript
