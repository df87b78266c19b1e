/-
# Comparisons

What the comparators of conditions mean.  Equality looks at what values hold and not at their tags; order
is for numbers; `in` asks for membership in a group, and in any other value for a part of its text that
matches the left side as a pattern.  How texts are searched for patterns is up to the host.
-/
import LineScript.Fault

namespace LineScript

/-- How texts are searched for patterns: whether a part of the text matches, if the pattern can be read. -/
abbrev Search := (pattern text : String) → Option Bool

/-- Nothing can be read as a pattern. -/
def noPatterns : Search := fun _ _ => none

/-- Membership in a group, or a search for the pattern that the left side writes. -/
def isInWith (search : Search) (left right : Value) : Except Fault Bool :=
  match right with
  | .group _ => .ok (right.contains left)
  | _ =>
    match search left.display right.display with
    | some found => .ok found
    | none => .error (.badPattern left.display)

/-- Compare two numbers by an order. -/
def order (comparator : String) (less : Float → Float → Bool) (left right : Value) :
    Except Fault Bool :=
  match left.number?, right.number? with
  | some a, some b => .ok (less a b)
  | _, _ => .error (.notNumbers comparator left.tag right.tag)

/-- The truth of a condition. -/
def compareWith (search : Search) (left : Value) (comparator : String) (right : Value) : Except Fault Bool :=
  match comparator with
  | "=" => .ok (left.sameRaw right)
  | "!=" => .ok (!left.sameRaw right)
  | "<" => order comparator (· < ·) left right
  | ">" => order comparator (· > ·) left right
  | "in" => isInWith search left right
  | "!in" => (isInWith search left right).map (!·)
  | other => .error (.comparatorUnknown other)

end LineScript
