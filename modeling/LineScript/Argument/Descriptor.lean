/-
# Argument descriptors

A keyword has one descriptor for each argument, by position.  A recurring descriptor takes all arguments
that are left, and an argument without written type is taken as a string.

`validate` checks arguments against descriptors and names the first mismatch.
-/
import LineScript.Argument.Spec
import LineScript.Token

namespace LineScript

/-! ## Acceptance -/

/-- Does a specification admit a token?  Where a string is expected a bare word will do. -/
def Spec.accepts (s : Spec) (t : Token) : Bool :=
  match s with
  | any => true
  | tags names => names.any fun name =>
      t.value.tag.name == name || (name == "string" && t.value.tag == .identifier)
  | words choices => t.isWord && choices.contains t.text

/-- What one argument of a keyword must be. -/
structure Descriptor where
  name : String
  spec : Spec
  optional : Bool := false
  recurring : Bool := false
  /-- A type was written for it. -/
  typed : Bool := true
  deriving DecidableEq, Repr, Inhabited

namespace Descriptor

/-- A descriptor from its written specification. -/
def ofText (name spec : String) : Descriptor := { name := name, spec := Spec.ofText spec }

/-- A descriptor without written type. -/
def untyped (name : String) : Descriptor := { name := name, spec := .tags ["string"], typed := false }

/-- The same argument, not required. -/
def makeOptional (d : Descriptor) : Descriptor := { d with optional := true }

/-- The same argument, any number of times. -/
def makeRecurring (d : Descriptor) : Descriptor := { d with recurring := true }

/-- Check one argument. -/
def check (d : Descriptor) (keyword : String) (arg : Token) : Except Fault Unit :=
  if d.spec.accepts arg then .ok ()
  else .error (.argumentRejected keyword d.spec d.name arg.value.tag arg.text)

/-- Check all of some arguments. -/
def checkAll (d : Descriptor) (keyword : String) : List Token → Except Fault Unit
  | [] => .ok ()
  | arg :: rest => do
    d.check keyword arg
    d.checkAll keyword rest

/-- An argument that is not there. -/
def checkMissing (d : Descriptor) (keyword : String) : Except Fault Unit :=
  if d.optional then .ok () else .error (.argumentMissing keyword d.name d.spec)

end Descriptor

/-! ## Validation -/

/-- Check arguments by position; `tooMany` is the fault when some are left. -/
def validateFrom (keyword : String) (tooMany : Fault) :
    List Descriptor → List Token → Except Fault Unit
  | [], [] => .ok ()
  | [], _ :: _ => .error tooMany
  | d :: ds, args =>
    if d.recurring then
      match args with
      | [] => d.checkMissing keyword
      | _ :: _ => d.checkAll keyword args
    else
      match args with
      | [] => do
        d.checkMissing keyword
        validateFrom keyword tooMany ds []
      | arg :: rest => do
        d.check keyword arg
        validateFrom keyword tooMany ds rest

/-- Check the arguments of a keyword. -/
def validate (keyword : String) (descriptors : List Descriptor) (args : List Token) :
    Except Fault Unit :=
  validateFrom keyword (.argumentsTooMany keyword descriptors.length args.length) descriptors args

end LineScript
