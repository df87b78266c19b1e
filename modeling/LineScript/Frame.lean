/-
# Call frames

A frame belongs to one running call: the function, the line of the calling statement, and the arguments
bound to the parameters.  Only the parameters of the innermost frame are visible, so leaving a call
uncovers those of its caller.
-/
import LineScript.Value

namespace LineScript

/-- One running call. -/
structure Frame where
  function : String
  /-- The line of the statement that made the call, counted from zero. -/
  returnLine : Nat
  /-- The parameters with their arguments, in order. -/
  bindings : List (String × Value)
  deriving Repr, Inhabited

namespace Frame

/-- The arguments in order. -/
def arguments (f : Frame) : List Value := f.bindings.map (·.2)

/-- The value of a parameter; of two bindings of one name the later counts. -/
def param? (f : Frame) (name : String) : Option Value := f.bindings.reverse.lookup name

/-- The parameters in order, each with the value it has. -/
def params (f : Frame) : List (String × Value) :=
  f.bindings.map fun (name, value) => (name, (f.param? name).getD value)

end Frame

/-- The running calls, the innermost first. -/
abbrev Calls := List Frame

end LineScript
