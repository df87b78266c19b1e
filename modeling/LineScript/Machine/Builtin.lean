/-
# Built-in keywords

The keywords that need no extension: which arguments they take and what they do.  A keyword answers where
the run goes on: on the next line, on some other line, or with code nested in the statement itself.
-/
import LineScript.Machine.Basic

namespace LineScript

open LineScript.Text LineScript.Decimal

/-! ## Names and arguments -/

/-- The operations on number variables. -/
inductive Arithmetic
  | add | subtract | multiply | divide | modulo
  deriving DecidableEq, Repr, Inhabited

/-- The built-in keywords. -/
inductive Builtin
  | declare
  | assign
  | arithmetic (op : Arithmetic)
  | join
  | log
  | function
  | execute
  | finish
  | condition
  | otherwise
  | continuation
  | jump
  | iterate
  | newClass
  | newObject
  | property
  | pause
  | awaitKey
  | stop
  | restart
  | exportName
  | importName
  deriving DecidableEq, Repr, Inhabited

/-- The written form of an operation. -/
def Arithmetic.name : Arithmetic → String
  | add => "add"
  | subtract => "subtract"
  | multiply => "multiply"
  | divide => "divide"
  | modulo => "modulo"

/-- The written form of a keyword. -/
def Builtin.name : Builtin → String
  | declare => "var"
  | assign => "set"
  | arithmetic op => op.name
  | join => "join"
  | log => "log"
  | function => "function"
  | execute => "execute"
  | finish => "end"
  | condition => "if"
  | otherwise => "else"
  | continuation => "|"
  | jump => "jump"
  | iterate => "iterate"
  | newClass => "class"
  | newObject => "object"
  | property => "#"
  | pause => "pause"
  | awaitKey => "awaitkey"
  | stop => "stop"
  | restart => "restart"
  | exportName => "export"
  | importName => "import"

/-- All built-in keywords. -/
def Builtin.all : List Builtin :=
  [declare, assign, arithmetic .add, arithmetic .subtract, arithmetic .multiply, arithmetic .divide,
    arithmetic .modulo, join, log, function, execute, finish, condition, otherwise, continuation, jump,
    iterate, newClass, newObject, property, pause, awaitKey, stop, restart, exportName, importName]

/-- The built-in keyword of a name. -/
def Builtin.ofName? (name : String) : Option Builtin := all.find? (·.name == name)

/-- The arguments of a condition with its code. -/
def conditionDescriptors : List Descriptor :=
  [.ofText "left" "any", .ofText "comparator" "comparator", .ofText "right" "any",
    (Descriptor.ofText "code" "any").makeRecurring]

/-- The arguments of a keyword. -/
def Builtin.descriptors : Builtin → List Descriptor
  | declare => [.ofText "name" "identifier", (Descriptor.ofText "value" "any").makeOptional]
  | assign => [.ofText "name" "identifier", .ofText "value" "any"]
  | arithmetic _ => [.ofText "name" "identifier", .ofText "amount" "number"]
  | join => [.ofText "name" "identifier", (Descriptor.ofText "values" "any").makeRecurring]
  | log => [(Descriptor.ofText "values" "any").makeRecurring.makeOptional]
  | function =>
    [.ofText "name" "identifier",
      (Descriptor.ofText "parameters" "identifier").makeRecurring.makeOptional]
  | execute =>
    [.ofText "function" "identifier", (Descriptor.ofText "arguments" "any").makeRecurring.makeOptional]
  | finish => [.ofText "function" "identifier"]
  | condition => conditionDescriptors
  | otherwise | continuation => [(Descriptor.ofText "code" "any").makeRecurring]
  | jump => [.ofText "target" "number|relpos"]
  | iterate => [.ofText "source" "group", .ofText "separator" "=with", .ofText "function" "identifier"]
  | newClass => [.ofText "name" "identifier"]
  | newObject =>
    [.ofText "name" "identifier", (Descriptor.ofText "separator" "=from").makeOptional,
      (Descriptor.ofText "class" "identifier").makeOptional]
  | property => [.ofText "property" "identifier", .ofText "value" "any"]
  | pause => [(Descriptor.ofText "ticks" "number").makeOptional]
  | awaitKey => [(Descriptor.ofText "key" "any").makeOptional]
  | stop | restart => []
  | exportName | importName => [.ofText "name" "identifier"]

/-- The arguments of a property line of a class. -/
def classPropertyDescriptors : List Descriptor :=
  [.ofText "property" "identifier", .ofText "default" "any"]

/-- Where a run goes on after a keyword. -/
inductive Next
  | following
  /-- On this line, counted from zero. -/
  | line (n : Nat)
  /-- With the code behind this many arguments, one nesting level deeper. -/
  | nested (skip : Nat)
  deriving DecidableEq, Repr, Inhabited

namespace Machine

/-! ## Variables and output -/

/-- Declare a variable. -/
def runDeclare (i : Invocation) : Act Next := do
  let name ← Act.ofExcept (i.text 0)
  onSymbols (·.declare name (i.value? 1) (i.hasLabel "global"))
  return .following

/-- Assign a variable, or a property of the object that a variable holds. -/
def runAssign (i : Invocation) : Act Next := do
  let name ← Act.ofExcept (i.text 0)
  let value ← Act.ofExcept (i.value 1)
  let isGlobal := i.hasLabel "global"
  match cutString '.' name with
  | none => onSymbols (·.assign name value isGlobal)
  | some (base, property) =>
    let target ← lookup base (if isGlobal then .globals else .nearest)
    match target.object? with
    | none => throw (.notAnObject base target.tag)
    | some id => onObjects (·.setProperty id property value)
  return .following

/-- The result of an operation on numbers; nothing is divided by zero. -/
def compute (op : Arithmetic) (name : String) (current amount : Float) : Except Fault Float :=
  match op with
  | .add => .ok (current + amount)
  | .subtract => .ok (current - amount)
  | .multiply => .ok (current * amount)
  | .divide => if amount == 0.0 then .error (.byZero op.name name) else .ok (current / amount)
  | .modulo => if amount == 0.0 then .error (.byZero op.name name) else .ok (remainder current amount)

/-- Change a number variable. -/
def runArithmetic (op : Arithmetic) (i : Invocation) : Act Next := do
  let name ← Act.ofExcept (i.text 0)
  let some amount := (i.value? 1).bind Value.number? | throw (.amountMissing i.keyword)
  let held ← lookup name .locals
  let some current := held.number? | throw (.notANumber i.keyword name held.tag)
  let result ← Act.ofExcept (compute op name current amount)
  onSymbols (·.assign name (.number result) false)
  return .following

/-- The text of a string variable; one without value counts as empty. -/
def joinable (s : Symbols) (name : String) : Except Fault String :=
  match s.lookup name .locals with
  | .ok v =>
    match v with
    | .text .string text => .ok text
    | .word .string text => .ok text
    | other => .error (.notAString name other.tag)
  | .error f =>
    if (s.locals.find? name).any fun v => v.declared && v.value.isNone then .ok "" else .error f

/-- Append to a string variable. -/
def runJoin (i : Invocation) : Act Next := do
  let name ← Act.ofExcept (i.text 0)
  let text ← Act.ofExcept (joinable (← get).symbols name)
  let added := String.join ((i.args.drop 1).map (·.value.display))
  onSymbols (·.assign name (.string (text ++ added)) false)
  return .following

/-- Write to the console. -/
def runLog (i : Invocation) : Act Next := do
  modify (print (String.intercalate " " (i.args.map (·.value.display))))
  return .following

/-- Copy a variable from one scope to the other, declaring it there if need be. -/
def copyName (name : String) (toGlobal : Bool) : Act Unit := do
  let value ← lookup name (if toGlobal then .locals else .globals)
  let target := ((← get).symbols.table toGlobal).find? name
  if !target.any (·.declared) then onSymbols (·.declare name none toGlobal)
  onSymbols (·.assign name value toGlobal)

/-- Copy a local variable to the globals. -/
def runExport (i : Invocation) : Act Next := do
  let name ← Act.ofExcept (i.text 0)
  if (← get).settings.allowExport then copyName name true
  else disallow (.exporting name)
  return .following

/-- Copy a global variable to the locals. -/
def runImport (i : Invocation) : Act Next := do
  let name ← Act.ofExcept (i.text 0)
  if (← get).settings.allowImport then copyName name false
  else disallow (.importing name)
  return .following

/-! ## Conditions -/

/-- The truth of the condition that opens the arguments. -/
def holds (search : Search) (i : Invocation) : Except Fault Bool :=
  match i.value? 0, i.text? 1, i.value? 2 with
  | some left, some comparator, some right => compareWith search left comparator right
  | _, _, _ => .error (.conditionMissing i.keyword)

/-- Evaluate a condition and go on with its code if it holds. -/
def runCondition (i : Invocation) (depth : Nat) : Act Next := do
  let satisfied ← Act.ofExcept (holds (← get).search i)
  let _ ← context depth
  modify (changeContext depth ({ · with satisfied := satisfied }))
  return if satisfied then .nested 3 else .following

/-- Code for when no condition of the chain has held. -/
def runOtherwise (depth : Nat) : Act Next := do
  let c ← context depth
  if !c.canElse then throw .elseAlone
  return if c.satisfied then .following else .nested 0

/-- Add a property to the class that is being built. -/
def addProperty (i : Invocation) : Act Unit := do
  Act.ofExcept (validate "|" classPropertyDescriptors i.args)
  let some className := (← get).openClass | throw .propertyWithoutClass
  let name ← Act.ofExcept (i.text 0)
  let default ← Act.ofExcept (i.value 1)
  onObjects (·.addClassProperty className name default)

/-- Continue the statement before: another condition, more of the other branch, or a class property. -/
def runContinuation (i : Invocation) (depth : Nat) : Act Next := do
  let c ← context depth
  match c.lastKeyword with
  | some "if" =>
    if c.satisfied then return .following
    Act.ofExcept (validate "|" conditionDescriptors i.args)
    runCondition i depth
  | some "else" => return if c.satisfied then .following else .nested 0
  | some "class" =>
    addProperty i
    return .following
  | _ => throw .continuationAlone

/-! ## Classes and objects -/

/-- Start a class. -/
def runClass (i : Invocation) : Act Next := do
  let name ← Act.ofExcept (i.text 0)
  onObjects (·.declareClass name)
  modify ({ · with openClass := some name })
  return .following

/-- The class that an object statement names. -/
def classNamed (i : Invocation) (name : String) : Except Fault (Option String) :=
  match i.text? 1, i.text? 2 with
  | none, _ => .ok none
  | some _, some className => .ok (some className)
  | some _, none => .error (.objectFromNothing name)

/-- The object that a variable of an earlier pass still holds. -/
def keptObject? (s : Symbols) (name : String) : Option Nat := do
  let var ← s.locals.find? name
  if var.declared then none
  else
    let value ← var.value
    value.object?

/-- Make an object. -/
def createObject (className : Option String) : Act Nat := do
  let m ← get
  let (id, objects) ← Act.ofExcept (m.objects.create className)
  set { m with objects := objects }
  return id

/-- Declare a variable for an object, a kept one or a new one. -/
def runObject (i : Invocation) : Act Next := do
  let name ← Act.ofExcept (i.text 0)
  let className ← Act.ofExcept (classNamed i name)
  let id ← match keptObject? (← get).symbols name with
    | some id => pure id
    | none => createObject className
  onSymbols (·.declare name (some (.object id)) false)
  modify ({ · with openObject := some id })
  return .following

/-- Set a property of the object declared just before. -/
def runProperty (i : Invocation) (depth : Nat) : Act Next := do
  let c ← context depth
  match c.lastKeyword, (← get).openObject with
  | some "object", some id =>
    let name ← Act.ofExcept (i.text 0)
    let value ← Act.ofExcept (i.value 1)
    onObjects (·.setProperty id name value)
    return .following
  | _, _ => throw .propertyWithoutObject

/-! ## Functions and jumps -/

/-- The tag that a parameter asks for; types of extensions must be registered. -/
def parameterTag (types : List WordType) (name : String) : Except Fault Tag :=
  let tag := Tag.ofName name
  if tag.isBuiltin || types.any (·.name == name) then .ok tag else .error (.typeUnknown name)

/-- The parameter that an argument writes. -/
def readParameter (function text : String) (seen : List Parameter) : Act Parameter := do
  let (name, type) := match cutString ':' text with
    | some (name, type) => (name, some type)
    | none => (text, none)
  if name.isEmpty || seen.any (·.name == name) then throw (.parameterInvalid text function)
  match type with
  | none =>
    warn (.untypedParameter name function)
    return ⟨name, some .string⟩
  | some "any" => return ⟨name, none⟩
  | some type => return ⟨name, some (← Act.ofExcept (parameterTag (← get).registry.types type))⟩

/-- The parameters that some arguments write. -/
def readParameters (function : String) (seen : List Parameter) : List Token → Act (List Parameter)
  | [] => return seen
  | arg :: rest => do
    let p ← readParameter function arg.text seen
    readParameters function (seen ++ [p]) rest

/-- Declare a function. -/
def runFunction (i : Invocation) : Act Next := do
  let name ← Act.ofExcept (i.text 0)
  let params ← readParameters name [] (i.args.drop 1)
  let cursor := (← get).cursor
  match ← onSymbolsReply (·.declareFunction name params cursor) with
  | .skip => return .following
  | .resume line => return .line line

/-- Call a function. -/
def runExecute (i : Invocation) : Act Next := do
  let name ← Act.ofExcept (i.text 0)
  let cursor := (← get).cursor
  return .line (← onSymbolsReply (·.call name ((i.args.drop 1).map (·.value)) cursor))

/-- Return from a function. -/
def runEnd (i : Invocation) : Act Next := do
  let name ← Act.ofExcept (i.text 0)
  match ← onSymbolsReply (·.finishCall name) with
  | .resume line => return .line line
  | .ignored => return .following

/-- The line that a jump asks for, counted from one. -/
def requestedLine (cursor : Nat) (operand : Option Value) : Except Fault Int :=
  match operand with
  | some (.relpos offset) => .ok (cursor + 1 + offset)
  | some (.number n) =>
    match (Value.number n).integer? with
    | some line => .ok line
    | none => .error .jumpFraction
  | _ => .error .jumpOperand

/-- The line that a jump leads to, counted from zero. -/
def jumpTarget (cursor lines : Nat) (operand : Option Value) : Except Fault Nat := do
  let requested ← requestedLine cursor operand
  if 1 ≤ requested ∧ requested ≤ lines then return (requested - 1).toNat
  else throw (.jumpOutside requested lines)

/-- Go on with another line. -/
def runJump (i : Invocation) : Act Next := do
  let m ← get
  return .line (← Act.ofExcept (jumpTarget m.cursor m.script.lines.size (i.value? 0)))

/-- Call a function for each element of a group. -/
def runIterate (i : Invocation) : Act Next := do
  let some items := (i.value? 0).bind Value.group? | throw .iterateNoGroup
  let name ← Act.ofExcept (i.text 2)
  let cursor := (← get).cursor
  match ← onSymbolsReply (·.iterate name items cursor) with
  | some start => return .line start
  | none => return .following

/-! ## Waiting and stopping -/

/-- The mode that a pause leads to. -/
def pauseMode (current : Mode) (ticks : Option Value) : Except Fault Mode :=
  match ticks with
  | none => .ok .paused
  | some v =>
    match v.integer? with
    | some n =>
      if n < 0 then .error (.pauseTicks v)
      else if n = 0 then .ok current
      else .ok (.waiting (.ticks n.toNat))
    | none => .error (.pauseTicks v)

/-- Halt until the host resumes, or for some ticks. -/
def runPause (i : Invocation) : Act Next := do
  let mode ← Act.ofExcept (pauseMode (← get).mode (i.value? 0))
  modify ({ · with mode := mode })
  return .following

/-- Wait for a key. -/
def runAwaitKey (i : Invocation) : Act Next := do
  modify ({ · with mode := .waiting (.key ((i.value? 0).map Value.display)) })
  return .following

/-- Drop everything and end the run. -/
def runStop : Act Next := do
  modify fun m => { m.hardReset with mode := .idle }
  return .line 0

/-- Begin again from the first line. -/
def runRestart (i : Invocation) : Act Next := do
  modify fun m => if i.hasLabel "non-destructive" then m.softReset else m.hardReset
  return .line 0

/-! ## All keywords -/

/-- Run a built-in keyword on checked arguments. -/
def runBuiltin (b : Builtin) (i : Invocation) (depth : Nat) : Act Next :=
  match b with
  | .declare => runDeclare i
  | .assign => runAssign i
  | .arithmetic op => runArithmetic op i
  | .join => runJoin i
  | .log => runLog i
  | .function => runFunction i
  | .execute => runExecute i
  | .finish => runEnd i
  | .condition => runCondition i depth
  | .otherwise => runOtherwise depth
  | .continuation => runContinuation i depth
  | .jump => runJump i
  | .iterate => runIterate i
  | .newClass => runClass i
  | .newObject => runObject i
  | .property => runProperty i depth
  | .pause => runPause i
  | .awaitKey => runAwaitKey i
  | .stop => runStop
  | .restart => runRestart i
  | .exportName => runExport i
  | .importName => runImport i

end Machine

end LineScript
