/-
# The names of a script

`Symbols` holds local and global variables, functions, the running calls and the one running iteration.

* A variable takes on the tag of its first value, and every later value must have that tag.
* A variable or function is declared for one pass.  `Symbols.resetPass` ends the pass and keeps the values,
  so that a script can run its declarations again; `Symbols.clear` drops all that the script made.
* Each operation is a function on the whole store, so one that fails leaves no trace.

`Symbols.Command` lists the operations as data and `Symbols.perform` carries one out; the stores that a
history can lead to are those of `Symbols.Reachable`.
-/
import LineScript.Catalog
import LineScript.Frame
import LineScript.Token

namespace LineScript

/-! ## Entries -/

/-- A named place for a value. -/
structure Variable where
  /-- Nothing until the first assignment. -/
  value : Option Value := none
  /-- Declared in the current pass. -/
  declared : Bool := true
  /-- Provided from outside the script; survives every reset. -/
  hostOwned : Bool := false
  deriving Repr, Inhabited

/-- Can the variable be read and assigned? -/
def Variable.isOpen (v : Variable) : Bool := v.declared || v.hostOwned

/-- A parameter of a function, which may ask for a tag. -/
structure Parameter where
  name : String
  tag : Option Tag := none
  deriving Repr, DecidableEq, Inhabited

/-- Does a value have the tag that the parameter asks for? -/
def Parameter.accepts (p : Parameter) (v : Value) : Bool := p.tag.all (· == v.tag)

/-- The name of the tag that a parameter asks for. -/
def Parameter.tagName (p : Parameter) : String := (p.tag.map Tag.name).getD "any"

/-- A parameter as lists show it. -/
def Parameter.display (p : Parameter) : String := p.name ++ ":" ++ p.tagName

/-- A function of the script. -/
structure Function where
  /-- The first line of the body. -/
  start : Nat
  /-- The line of the matching `end`, once it is known. -/
  finish : Option Nat := none
  params : List Parameter := []
  declared : Bool := true
  /-- The matching `end` has been found. -/
  ended : Bool := false
  deriving Repr, DecidableEq, Inhabited

/-- How far the running iteration is. -/
structure Iteration where
  function : String
  items : List Value
  index : Nat
  /-- How many calls are running during a round of the iteration, its own included. -/
  depth : Nat
  deriving Repr, Inhabited

/-- All names of a script. -/
structure Symbols where
  locals : Catalog Variable := {}
  globals : Catalog Variable := {}
  functions : Catalog Function := {}
  calls : Calls := []
  iteration : Option Iteration := none
  /-- The function whose body is being passed over. -/
  declaring : Option String := none
  deriving Repr, Inhabited

/-- The number of calls that may run at a time. -/
def maxCalls : Nat := 1024

namespace Symbols

/-! ## Variables -/

/-- The variables of one scope. -/
def table (s : Symbols) (isGlobal : Bool) : Catalog Variable :=
  if isGlobal then s.globals else s.locals

/-- The store with other variables in one scope. -/
def withTable (s : Symbols) (isGlobal : Bool) (t : Catalog Variable) : Symbols :=
  if isGlobal then { s with globals := t } else { s with locals := t }

/-- A value may replace another one of the same tag. -/
def checkTag (name : String) (held : Option Value) (given : Value) : Except Fault Unit :=
  match held with
  | some v => if v.tag = given.tag then .ok () else .error (.variableType name v.tag given.tag)
  | none => .ok ()

/-- Declare a variable.  One left by an earlier pass keeps its value, and an initial value is then only
checked against it. -/
def declare (s : Symbols) (name : String) (initial : Option Value) (isGlobal : Bool) :
    Except Fault Symbols :=
  let initial := initial.map Value.normalized
  match (s.table isGlobal).find? name with
  | none => .ok (s.withTable isGlobal ((s.table isGlobal).enter name { value := initial }))
  | some var =>
    if var.declared then .error (.variableDeclared name)
    else do
      if let some given := initial then checkTag name var.value given
      let var := { var with value := var.value <|> initial, declared := true }
      return s.withTable isGlobal ((s.table isGlobal).enter name var)

/-- The parameter of the innermost call that hides a missing local variable. -/
def shadowing? (s : Symbols) (name : String) : Option Frame :=
  if s.locals.has name then none
  else s.calls.head?.filter fun f => (f.param? name).isSome

/-- Assign a variable. -/
def assign (s : Symbols) (name : String) (value : Value) (isGlobal : Bool) : Except Fault Symbols :=
  let value := value.normalized
  match if isGlobal then none else s.shadowing? name with
  | some frame => .error (.parameterReadOnly name frame.function)
  | none =>
    match (s.table isGlobal).find? name with
    | none => .error (.variableUnknown isGlobal name)
    | some var =>
      if var.isOpen then do
        checkTag name var.value value
        let var := { var with value := some value }
        return s.withTable isGlobal ((s.table isGlobal).enter name var)
      else .error (.variablePending false name)

/-- Provide a global variable from outside the script, whatever it held. -/
def provide (s : Symbols) (name : String) (value : Value) : Symbols :=
  { s with globals := s.globals.enter name ⟨some value.normalized, true, true⟩ }

/-- The value of a variable that can be read. -/
def readable (t : Catalog Variable) (isGlobal : Bool) (name : String) : Except Fault Value :=
  match t.find? name with
  | none => .error (.variableUnknown isGlobal name)
  | some var =>
    if var.isOpen then
      match var.value with
      | some v => .ok v
      | none => .error (.variableEmpty isGlobal name)
    else .error (.variablePending isGlobal name)

/-- Look a name up. -/
def lookup (s : Symbols) (name : String) : Reach → Except Fault Value
  | .locals => readable s.locals false name
  | .globals => readable s.globals true name
  | .parameters =>
    match s.calls.head? with
    | none => .error (.parameterOutsideCall name)
    | some frame =>
      match frame.param? name with
      | some v => .ok v
      | none => .error (.parameterUnknown frame.function name)
  | .nearest =>
    match s.calls.head?.bind (·.param? name) with
    | some v => .ok v
    | none => readable s.locals false name

/-! ## Functions -/

/-- What follows the declaration of a function. -/
inductive Declared
  /-- Lines are passed over up to the matching `end`. -/
  | skip
  /-- The body is known: go on behind it. -/
  | resume (line : Nat)
  deriving DecidableEq, Repr

/-- Declare a function on a line.  One left by an earlier pass on the same line keeps its body. -/
def declareFunction (s : Symbols) (name : String) (params : List Parameter) (line : Nat) :
    Except Fault (Declared × Symbols) :=
  let fresh : Declared × Symbols :=
    (.skip, { s with
      functions := s.functions.enter name { start := line + 1, params := params }
      declaring := some name })
  match s.functions.find? name with
  | none => .ok fresh
  | some f =>
    if f.declared then .error (.functionDeclared name)
    else
      match f.finish with
      | some finish =>
        if f.start = line + 1 then
          let f := { f with declared := true, params := params }
          .ok (.resume (finish + 1), { s with functions := s.functions.enter name f })
        else .ok fresh
      | none => .ok fresh

/-- Close the body that is being passed over. -/
def finishDeclaration (s : Symbols) (line : Nat) : Symbols :=
  match s.declaring with
  | none => s
  | some name =>
    let functions := match s.functions.find? name with
      | some f => s.functions.enter name { f with finish := some line, ended := true }
      | none => s.functions
    { s with functions := functions, declaring := none }

/-- A function that is declared in the current pass. -/
def function? (s : Symbols) (name : String) : Option Function :=
  (s.functions.find? name).filter (·.declared)

/-- A function that can be called. -/
def callable (s : Symbols) (name : String) : Except Fault Function :=
  match s.function? name with
  | some f => .ok f
  | none => .error (.functionUnknown name)

/-! ## Calls -/

/-- One more running call, unless there are too many. -/
def pushCall (s : Symbols) (frame : Frame) : Except Fault Symbols :=
  if s.calls.length < maxCalls then .ok { s with calls := frame :: s.calls }
  else .error (.callDepth maxCalls frame.function)

/-- Check arguments against parameters, one by one. -/
def checkArguments (function : String) : List Parameter → List Value → Except Fault Unit
  | p :: ps, v :: vs =>
    if p.accepts v then checkArguments function ps vs
    else .error (.callType p.name function p.tagName v)
  | _, _ => .ok ()

/-- Call a function from a line; the answer is the first line of its body. -/
def call (s : Symbols) (name : String) (args : List Value) (line : Nat) :
    Except Fault (Nat × Symbols) := do
  let f ← s.callable name
  if args.length ≠ f.params.length then
    throw (.callArity name f.params.length args.length)
  let args := args.map Value.normalized
  checkArguments name f.params args
  let s ← s.pushCall ⟨name, line, (f.params.map (·.name)).zip args⟩
  return (f.start, s)

/-- What an `end` outside of a declaration does. -/
inductive Returned
  /-- Go on at a line. -/
  | resume (line : Nat)
  /-- The function is not the innermost call. -/
  | ignored
  deriving DecidableEq, Repr

/-- The iteration whose round ends when the call of a function at some depth returns. -/
def endingRound? (s : Symbols) (name : String) (depth : Nat) : Option Iteration :=
  s.iteration.filter fun it => it.function == name && it.depth == depth

/-- Return from the innermost call of a function.  When it was a round of the iteration, the next round
starts, or the iteration is over. -/
def finishCall (s : Symbols) (name : String) : Except Fault (Returned × Symbols) :=
  match s.function? name with
  | none => .error (.endUndeclared name)
  | some f =>
    match s.calls with
    | [] => .ok (.ignored, s)
    | frame :: outer =>
      if frame.function = name then
        match s.endingRound? name (outer.length + 1) with
        | none => .ok (.resume (frame.returnLine + 1), { s with calls := outer })
        | some it =>
          match it.items[it.index + 1]?, f.params.head? with
          | some item, some p =>
            .ok (.resume f.start, { s with
              calls := ⟨name, frame.returnLine, [(p.name, item)]⟩ :: outer
              iteration := some { it with index := it.index + 1 } })
          | _, _ =>
            .ok (.resume (frame.returnLine + 1), { s with calls := outer, iteration := none })
      else .ok (.ignored, s)

/-- Start an iteration from a line; the answer is the first line of the body, or nothing when there is
nothing to iterate over. -/
def iterate (s : Symbols) (name : String) (items : List Value) (line : Nat) :
    Except Fault (Option Nat × Symbols) :=
  match s.iteration with
  | some it => .error (.iterationRunning name it.function)
  | none => do
    let f ← s.callable name
    match f.params.head? with
    | none => throw (.iterationNoParameter name)
    | some p =>
      let items := items.map Value.normalized
      match items.find? (!p.accepts ·) with
      | some bad => throw (.iterationType name p.name p.tagName bad)
      | none =>
        match items with
        | [] => return (none, s)
        | first :: _ =>
          let s ← s.pushCall ⟨name, line, [(p.name, first)]⟩
          return (some f.start, { s with iteration := some ⟨name, items, 0, s.calls.length⟩ })

/-! ## Resets -/

/-- End the pass: all can be declared again, values stay. -/
def resetPass (s : Symbols) : Symbols :=
  { s with
    locals := s.locals.map fun v => { v with declared := false }
    globals := s.globals.map fun v => { v with declared := v.declared && v.hostOwned }
    functions := s.functions.map fun f => { f with declared := false }
    calls := []
    iteration := none
    declaring := none }

/-- Drop all that the script made. -/
def clear (s : Symbols) : Symbols := { globals := s.globals.filter (·.hostOwned) }

/-! ## Histories -/

/-- The operations on a store, as data. -/
inductive Command
  | declare (name : String) (initial : Option Value) (isGlobal : Bool)
  | assign (name : String) (value : Value) (isGlobal : Bool)
  | provide (name : String) (value : Value)
  | declareFunction (name : String) (params : List Parameter) (line : Nat)
  | finishDeclaration (line : Nat)
  | call (name : String) (args : List Value) (line : Nat)
  | finishCall (name : String)
  | iterate (name : String) (items : List Value) (line : Nat)
  | resetPass
  | clear

/-- What an operation answers. -/
inductive Reply
  | done
  | declared (d : Declared)
  | returned (r : Returned)
  | started (line : Option Nat)
  deriving DecidableEq, Repr

/-- The answer of an operation with the store that follows it; after a fault the store is the old one. -/
def settle (s : Symbols) : Except Fault (Reply × Symbols) → Except Fault Reply × Symbols
  | .ok (reply, s') => (.ok reply, s')
  | .error fault => (.error fault, s)

/-- Carry out an operation. -/
def perform (s : Symbols) : Command → Except Fault Reply × Symbols
  | .declare name initial isGlobal => s.settle ((s.declare name initial isGlobal).map (.done, ·))
  | .assign name value isGlobal => s.settle ((s.assign name value isGlobal).map (.done, ·))
  | .provide name value => (.ok .done, s.provide name value)
  | .declareFunction name params line =>
    s.settle ((s.declareFunction name params line).map fun (d, s') => (.declared d, s'))
  | .finishDeclaration line => (.ok .done, s.finishDeclaration line)
  | .call name args line =>
    s.settle ((s.call name args line).map fun (start, s') => (.started (some start), s'))
  | .finishCall name => s.settle ((s.finishCall name).map fun (r, s') => (.returned r, s'))
  | .iterate name items line =>
    s.settle ((s.iterate name items line).map fun (start, s') => (.started start, s'))
  | .resetPass => (.ok .done, s.resetPass)
  | .clear => (.ok .done, s.clear)

/-- The stores that some history of operations leads to from the empty one. -/
inductive Reachable : Symbols → Prop
  | empty : Reachable {}
  | step {s : Symbols} (c : Command) : Reachable s → Reachable (s.perform c).2

end Symbols

end LineScript
