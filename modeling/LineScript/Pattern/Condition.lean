/-
# Conditions with patterns

The program searches texts for the patterns of `Pattern.Expr`.
-/
import LineScript.Comparison
import LineScript.Pattern.Reader

namespace LineScript

/-- Search a text for a pattern as the language writes it. -/
def Pattern.search? : Search := fun pattern text => (Pattern.Expr.ofText? pattern).map (·.isFoundIn text)

/-- The truth of a condition, with the patterns of the language. -/
def compare (left : Value) (comparator : String) (right : Value) : Except Fault Bool :=
  compareWith Pattern.search? left comparator right

end LineScript
