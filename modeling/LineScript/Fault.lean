/-
# Faults and cautions

A `Fault` ends the statement it arises in, and names its cause.  `Fault.kind` classifies it and
`Fault.message` words it.  A `Caution` only warns; in strict mode it becomes a fault.
-/
import LineScript.Value
import LineScript.Argument.Spec

namespace LineScript

open LineScript.Decimal

/-! ## Kinds -/

/-- The classes of faults. -/
inductive FaultKind
  | reference | typing | form | environment | escalated | internal
  deriving DecidableEq, Repr, Inhabited

/-- The name of a class of faults in reports. -/
def FaultKind.name : FaultKind → String
  | reference => "reference"
  | typing => "type"
  | form => "syntax"
  | environment => "environment"
  | escalated => "escalated-warning"
  | internal => "internal"

/-- What stands before the message when a fault is shown by itself. -/
def FaultKind.lead : FaultKind → String
  | reference => "ReferenceError: "
  | typing => "TypeError: "
  | form => "SyntaxError: "
  | environment => "EnvironmentError: "
  | escalated => "Warning (strict mode): "
  | internal => ""

/-! ## Cautions -/

/-- A cause for a warning. -/
inductive Caution
  | deprecated (keyword instead : String)
  | untypedArgument (argument keyword : String)
  | untypedParameter (parameter function : String)
  | exporting (name : String)
  | importing (name : String)
  deriving DecidableEq, Repr

/-- The wording of a caution. -/
def Caution.message : Caution → String
  | deprecated keyword instead =>
    s!"'{keyword}' is deprecated and was not executed, use '{instead}' instead"
  | untypedArgument argument keyword =>
    s!"argument '{argument}' of '{keyword}' has no type, treating it as string"
  | untypedParameter parameter function =>
    s!"parameter '{parameter}' of '{function}' has no type, treating it as string"
  | exporting name => s!"exporting '{name}' is not allowed"
  | importing name => s!"importing '{name}' is not allowed"

/-! ## Faults -/

/-- A cause that ends a statement. -/
inductive Fault
  -- cutting a line into tokens
  | openString
  | openGroup
  | openReference
  | referenceInWord (before : String)
  | emptyReference
  -- directives
  | emptyDirective
  | directiveTakesOne (name what : String)
  | ignoreNothing
  | displayNothing
  | badBudget (text : String)
  | badStrict
  | unknownDirective (name : String)
  | onLine (cause : Fault) (line : Nat)
  -- members of values
  | groupPosition (base accessor : String)
  | positionOutside (position : Nat) (base : String) (size : Nat)
  | noMember (base : String) (tag : Tag) (accessor : String)
  | objectLacks (base property : String)
  | propertyMissing (property : String)
  | noSuchObject (id : Nat)
  -- variables
  | variableDeclared (name : String)
  | variableType (name : String) (held given : Tag)
  | parameterReadOnly (parameter function : String)
  | variablePending (isGlobal : Bool) (name : String)
  | variableUnknown (isGlobal : Bool) (name : String)
  | variableEmpty (isGlobal : Bool) (name : String)
  | parameterOutsideCall (parameter : String)
  | parameterUnknown (function parameter : String)
  -- functions
  | functionDeclared (name : String)
  | functionUnknown (name : String)
  | callArity (function : String) (expected given : Nat)
  | callType (parameter function expected : String) (given : Value)
  | callDepth (limit : Nat) (function : String)
  | endUndeclared (function : String)
  | iterationRunning (function running : String)
  | iterationNoParameter (function : String)
  | iterationType (function parameter expected : String) (given : Value)
  | parameterInvalid (text function : String)
  | typeUnknown (name : String)
  -- classes and objects
  | classDeclared (name : String)
  | classUnknown (name : String)
  | classPropertyTaken (className property : String)
  | classLacks (className property : String)
  | classPropertyType (property className : String) (held given : Tag)
  | propertyType (property : String) (held given : Tag)
  -- statements
  | noKeyword (tag : Tag) (text : String)
  | labelMisplaced (label keyword : String) (targets : List String)
  | keywordUnknown (name : String)
  | argumentRejected (keyword : String) (spec : Spec) (argument : String) (tag : Tag) (text : String)
  | argumentMissing (keyword argument : String) (spec : Spec)
  | argumentsTooMany (keyword : String) (limit given : Nat)
  | conditionMissing (keyword : String)
  | elseAlone
  | continuationAlone
  | propertyWithoutClass
  | propertyWithoutObject
  | objectFromNothing (name : String)
  | notNumbers (comparator : String) (left right : Tag)
  | comparatorUnknown (text : String)
  | badPattern (pattern : String)
  | notAnObject (base : String) (tag : Tag)
  | amountMissing (keyword : String)
  | notANumber (keyword name : String) (tag : Tag)
  | byZero (keyword name : String)
  | notAString (name : String) (tag : Tag)
  | jumpFraction
  | jumpOperand
  | jumpOutside (requested : Int) (lines : Nat)
  | iterateNoGroup
  | pauseTicks (ticks : Value)
  -- the run
  | noScript
  | extensionMissing (id : String)
  | wrongEnvironment (wanted actual : String)
  | zeroBudget
  | zeroSetting
  | badSettings
  | settingsUnreadable (path reason : String)
  | forbidden (caution : Caution)
  | strict (caution : Caution)
  -- extensions
  | anonymousExtension
  | extensionTaken (id : String)
  | extensionReentered (id : String)
  | extensionAbsent (slot : Nat)
  | raised (kind : FaultKind) (text : String)
  -- broken promises inside the machine
  | argumentAbsent (keyword : String) (position : Nat)
  | contextAbsent (depth : Nat)
  deriving Repr, Inhabited

namespace Fault

/-- The class of a fault. -/
def kind : Fault → FaultKind
  | openString | openGroup | openReference | referenceInWord _ | emptyReference => .form
  | emptyDirective | directiveTakesOne .. | ignoreNothing | displayNothing | badBudget _ | badStrict
  | unknownDirective _ | onLine .. => .form
  | groupPosition .. | positionOutside .. | noMember .. | objectLacks .. | propertyMissing _ => .reference
  | noSuchObject _ => .internal
  | variableDeclared _ | parameterReadOnly .. | variablePending .. | variableUnknown ..
  | variableEmpty .. | parameterOutsideCall _ | parameterUnknown .. => .reference
  | variableType .. => .typing
  | functionDeclared _ | functionUnknown _ | endUndeclared _ => .reference
  | callArity .. | iterationRunning .. | iterationNoParameter _ | parameterInvalid .. => .form
  | callType .. | iterationType .. | typeUnknown _ => .typing
  | callDepth .. => .environment
  | classDeclared _ | classUnknown _ | classPropertyTaken .. | classLacks .. => .reference
  | classPropertyType .. | propertyType .. => .typing
  | noKeyword .. | labelMisplaced .. | keywordUnknown _ | argumentsTooMany .. => .form
  | argumentRejected .. | argumentMissing .. => .typing
  | conditionMissing _ | elseAlone | continuationAlone | propertyWithoutClass | propertyWithoutObject
  | objectFromNothing _ | comparatorUnknown _ | badPattern _ => .form
  | notNumbers .. | notAnObject .. | amountMissing _ | notANumber .. | byZero .. | notAString ..
  | jumpFraction | jumpOperand | iterateNoGroup | pauseTicks _ => .typing
  | jumpOutside .. => .reference
  | noScript | extensionMissing _ | wrongEnvironment .. | zeroBudget | zeroSetting | badSettings
  | settingsUnreadable .. | forbidden _ | anonymousExtension | extensionTaken _ => .environment
  | strict _ => .escalated
  | extensionReentered _ | extensionAbsent _ => .internal
  | raised k _ => k
  | argumentAbsent .. | contextAbsent _ => .internal

/-- The word that tells a global variable from a local one. -/
def scopeWord (isGlobal : Bool) : String := if isGlobal then "global " else ""

/-- The ending of a counted noun. -/
def plural (n : Nat) : String := if n = 1 then "" else "s"

/-- The wording of a fault. -/
def message : Fault → String
  | openString => "unterminated string literal"
  | openGroup => "unterminated group, expected ']'"
  | openReference => "unterminated variable reference, expected '\\'"
  | referenceInWord before =>
    s!"variable reference must stand alone, found '{before}' before '\\'"
  | emptyReference => "empty variable reference"
  | emptyDirective => "empty meta-tag"
  | directiveTakesOne name what => s!"meta-tag [{name}] takes exactly one {what}"
  | ignoreNothing => "meta-tag [ignore] needs at least one keyword"
  | displayNothing => "meta-tag [display] needs a name"
  | badBudget text => s!"meta-tag [ipt] needs a positive integer, got '{text}'"
  | badStrict => "meta-tag [strict] accepts only 'off'"
  | unknownDirective name => s!"unknown meta-tag [{name}]"
  | onLine cause line => s!"{cause.message} (line {naturalText line})"
  | groupPosition base accessor =>
    s!"group '{base}' can only be indexed by a position, got '{accessor}'"
  | positionOutside position base size =>
    s!"index {naturalText position} is out of range for group '{base}' of length {naturalText size}"
  | noMember base tag accessor => s!"'{base}' is a {tag.name}, it has no member '{accessor}'"
  | objectLacks base property => s!"object '{base}' has no property '{property}'"
  | propertyMissing property => s!"object has no property '{property}'"
  | noSuchObject id => s!"dangling object reference #{naturalText id}"
  | variableDeclared name => s!"variable '{name}' is already declared"
  | variableType name held given =>
    s!"variable '{name}' holds a {held.name} and cannot be set to a {given.name}"
  | parameterReadOnly parameter function => s!"parameter '{parameter}' of '{function}' is read-only"
  | variablePending isGlobal name =>
    s!"{scopeWord isGlobal}variable '{name}' has not been declared yet"
  | variableUnknown isGlobal name => s!"unknown {scopeWord isGlobal}variable '{name}'"
  | variableEmpty isGlobal name => s!"{scopeWord isGlobal}variable '{name}' has no value yet"
  | parameterOutsideCall parameter =>
    s!"parameter '{parameter}' requested outside of a function call"
  | parameterUnknown function parameter => s!"function '{function}' has no parameter '{parameter}'"
  | functionDeclared name => s!"function '{name}' is already declared"
  | functionUnknown name => s!"unknown function '{name}'"
  | callArity function expected given =>
    s!"function '{function}' expects {naturalText expected} argument{plural expected}, " ++
      s!"got {naturalText given}"
  | callType parameter function expected given =>
    s!"argument '{parameter}' of '{function}' expects {expected}, " ++
      s!"got {given.tag.name} ({given.display})"
  | callDepth limit function =>
    s!"call stack exhausted ({naturalText limit} nested calls) while calling '{function}'"
  | endUndeclared function => s!"'end {function}' before the function was declared"
  | iterationRunning function running =>
    s!"cannot iterate with '{function}' while an iteration with '{running}' is active"
  | iterationNoParameter function =>
    s!"function '{function}' must declare a parameter to be used with iterate"
  | iterationType function parameter expected given =>
    s!"cannot iterate with '{function}': parameter '{parameter}' expects {expected}, " ++
      s!"group holds {given.tag.name} ({given.display})"
  | parameterInvalid text function =>
    s!"invalid or repeated parameter '{text}' in function '{function}'"
  | typeUnknown name => s!"unknown type '{name}'"
  | classDeclared name => s!"class '{name}' is already declared"
  | classUnknown name => s!"unknown class '{name}'"
  | classPropertyTaken className property =>
    s!"class '{className}' already has a property '{property}'"
  | classLacks className property => s!"class '{className}' has no property '{property}'"
  | classPropertyType property className held given =>
    s!"property '{property}' of class '{className}' is a {held.name}, got a {given.name}"
  | propertyType property held given =>
    s!"property '{property}' holds a {held.name} and cannot be set to a {given.name}"
  | noKeyword tag text => s!"a statement must start with a keyword, found {tag.name} '{text}'"
  | labelMisplaced label keyword targets =>
    s!"label '{label}' cannot be applied to '{keyword}', only to: " ++ String.intercalate ", " targets
  | keywordUnknown name => s!"unknown keyword '{name}'"
  | argumentRejected keyword spec argument tag text =>
    s!"'{keyword}' expects {spec.display} for argument '{argument}', got {tag.name} '{text}'"
  | argumentMissing keyword argument spec =>
    s!"'{keyword}' is missing argument '{argument}' ({spec.display})"
  | argumentsTooMany keyword limit given =>
    s!"'{keyword}' takes at most {naturalText limit} argument{plural limit}, got {naturalText given}"
  | conditionMissing keyword => s!"'{keyword}' needs a condition: <value> <comparator> <value>"
  | elseAlone => "'else' must directly follow an 'if'"
  | continuationAlone => "'|' must follow an 'if', 'else' or 'class' statement"
  | propertyWithoutClass => "'|' property line without a class"
  | propertyWithoutObject => "'#' must directly follow an 'object' declaration"
  | objectFromNothing name => s!"'object {name} from' needs a class name"
  | notNumbers comparator left right =>
    s!"'{comparator}' compares numbers, got {left.name} and {right.name}"
  | comparatorUnknown text => s!"unknown comparator '{text}'"
  | badPattern pattern => s!"invalid pattern '{pattern}': <regex error>"
  | notAnObject base tag => s!"'{base}' is a {tag.name}, only objects have properties"
  | amountMissing keyword => s!"'{keyword}' needs a number amount"
  | notANumber keyword name tag => s!"'{keyword}' works on numbers, '{name}' is a {tag.name}"
  | byZero keyword name => s!"cannot {keyword} '{name}' by zero"
  | notAString name tag => s!"'join' works on strings, '{name}' is a {tag.name}"
  | jumpFraction => "'jump' needs a whole line number"
  | jumpOperand => "'jump' needs a line or ~offset"
  | jumpOutside requested lines =>
    s!"cannot jump to line {integerText requested}, the script has {naturalText lines} line{plural lines}"
  | iterateNoGroup => "'iterate' needs a group"
  | pauseTicks ticks => s!"cannot pause for {ticks.display} ticks"
  | noScript => "no script is loaded"
  | extensionMissing id => s!"script requires the extension '{id}', which is not registered"
  | wrongEnvironment wanted actual =>
    s!"script targets the '{wanted}' environment, running in '{actual}'"
  | zeroBudget => "instructions per tick must be at least 1"
  | zeroSetting => "instructions_per_tick must be at least 1"
  | badSettings => "invalid configuration"
  | settingsUnreadable path reason => s!"failed to read {path}: {reason}"
  | forbidden caution => caution.message
  | strict caution => caution.message
  | anonymousExtension => "extensions must provide a non-empty id"
  | extensionTaken id => s!"an extension with id '{id}' is already registered"
  | extensionReentered id => s!"extension '{id}' re-entered while running"
  | extensionAbsent slot => s!"no extension in slot {naturalText slot}"
  | raised _ text => text
  | argumentAbsent keyword position => s!"'{keyword}' ran without argument {naturalText (position + 1)}"
  | contextAbsent depth => s!"no statement context at depth {naturalText depth}"

/-- A fault shown by itself: its class, then its wording. -/
def display (f : Fault) : String := f.kind.lead ++ f.message

/-- Does the fault arise from the rules of the language? -/
def isOfLanguage (f : Fault) : Bool := f.kind != .internal

end Fault

end LineScript
