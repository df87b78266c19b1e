/-
# Statements

A statement is a row of tokens: labels, a keyword, arguments.  Running one checks the labels, finds the
keyword (a keyword of an extension comes before a built-in one of the same name), checks the arguments
and runs it.  Code that a keyword nests in its own arguments runs next, one level deeper.

Keywords of extensions run through an `Invoke`, given by the caller, since they can lead back to the
machine.
-/
import LineScript.Machine.Builtin

namespace LineScript

/-! ## Parts of a statement -/

/-- A statement taken apart. -/
structure Statement where
  labels : List String := []
  keyword : Token
  args : List Token := []
  deriving Repr, Inhabited

/-- Take a row of tokens apart: leading labels, then the keyword.  The last token is never a label. -/
def Statement.ofTokens (isLabel : String → Bool) (first : Token) : List Token → Statement
  | [] => { keyword := first }
  | second :: rest =>
    if first.isWord && isLabel first.text then
      let s := Statement.ofTokens isLabel second rest
      { s with labels := first.text :: s.labels }
    else { keyword := first, args := second :: rest }

/-- **A row of tokens is its labels, its keyword and its arguments**, in order. -/
theorem Statement.tokens_eq (isLabel : String → Bool) (first : Token) (rest : List Token) :
    ∃ leading, first :: rest = leading ++ (ofTokens isLabel first rest).keyword ::
        (ofTokens isLabel first rest).args ∧
      (ofTokens isLabel first rest).labels = leading.map (·.text) := by
  induction rest generalizing first with
  | nil => exact ⟨[], rfl, rfl⟩
  | cons second rest ih =>
    rw [ofTokens]
    split
    · obtain ⟨leading, htokens, hlabels⟩ := ih second
      exact ⟨first :: leading, congrArg (first :: ·) htokens, congrArg (first.text :: ·) hlabels⟩
    · exact ⟨[], rfl, rfl⟩

theorem Statement.mem_of_mem_args {isLabel : String → Bool} {first t : Token} {rest : List Token}
    (h : t ∈ (ofTokens isLabel first rest).args) : t ∈ first :: rest := by
  obtain ⟨leading, htokens, -⟩ := tokens_eq isLabel first rest
  rw [htokens]
  exact List.mem_append_right leading (List.mem_cons_of_mem _ h)

/-- There are fewer arguments than tokens. -/
theorem Statement.length_args_le (isLabel : String → Bool) (first : Token) (rest : List Token) :
    (ofTokens isLabel first rest).args.length ≤ rest.length := by
  obtain ⟨leading, htokens, -⟩ := tokens_eq isLabel first rest
  have hlength := congrArg List.length htokens
  simp only [List.length_cons, List.length_append] at hlength
  omega

/-- The keywords that are gone, with what to use instead. -/
def replacements : List (String × String) :=
  [("goto", "jump"), ("call", "execute"), ("print", "log")]

/-- The keywords that belong to the statement before them and leave its context in place. -/
def transparent : List String := ["|", "#"]

/-- How a keyword of the extension in a slot runs. -/
abbrev Invoke := (owner : Nat) → Invocation → Act Unit

/-- Insert a text into a sorted list. -/
def insertSorted (s : String) : List String → List String
  | [] => [s]
  | t :: rest => if s ≤ t then s :: t :: rest else t :: insertSorted s rest

/-- Texts in the order of their code points. -/
def sortTexts (l : List String) : List String := l.foldr insertSorted []

namespace Machine

/-! ## Checks -/

/-- Check that labels may stand before a keyword. -/
def checkLabels (r : Registry) (keyword : String) : List String → Except Fault Unit
  | [] => .ok ()
  | label :: rest =>
    let targets := (r.label? label).getD []
    if targets.contains keyword then checkLabels r keyword rest
    else .error (.labelMisplaced label keyword (sortTexts targets))

/-- Warn once about each argument of a keyword without type. -/
def warnUntyped (keyword : String) : List Descriptor → Act Unit
  | [] => pure ()
  | d :: rest => do
    let m ← get
    if !d.typed && !m.warnedArguments.contains (keyword, d.name) then
      set { m with warnedArguments := m.warnedArguments ++ [(keyword, d.name)] }
      warn (.untypedArgument d.name keyword)
    warnUntyped keyword rest

/-! ## Running -/

/-- Find a keyword, check its arguments and run it. -/
def runKeyword (invoke : Invoke) (i : Invocation) (depth : Nat) : Act Next := do
  match replacements.lookup i.keyword with
  | some instead =>
    warn (.deprecated i.keyword instead)
    return .following
  | none =>
    match (← get).registry.keywords.find? i.keyword with
    | some owned =>
      warnUntyped i.keyword owned.descriptors
      Act.ofExcept (validate i.keyword owned.descriptors i.args)
      invoke owned.owner i
      return .following
    | none =>
      match Builtin.ofName? i.keyword with
      | some b =>
        Act.ofExcept (validate i.keyword b.descriptors i.args)
        runBuiltin b i depth
      | none => throw (.keywordUnknown i.keyword)

/-- Leave the context of a statement to the one after it. -/
def leaveContext (keyword : String) (depth : Nat) (m : Machine) : Machine :=
  if transparent.contains keyword then m
  else m.changeContext depth ({ · with canElse := keyword == "if", lastKeyword := some keyword })

/-- Run a statement that is taken apart. -/
def dispatch (invoke : Invoke) (s : Statement) (depth : Nat) : Act Next := do
  let keyword := s.keyword.text
  if !s.keyword.isWord then throw (.noKeyword s.keyword.value.tag keyword)
  Act.ofExcept (checkLabels (← get).registry keyword s.labels)
  let line := (← get).cursor
  let next ← runKeyword invoke ⟨keyword, s.labels, s.args, line⟩ depth
  modify (leaveContext keyword depth)
  return next

/-- Does the script ask to skip statements that begin like this? -/
def isIgnored (m : Machine) (first : Token) : Bool :=
  first.isWord && m.script.notes.ignored.contains first.text

/-- Run a row of tokens and the code nested in it.  Nested code is shorter than what it is nested in, so the
length of the row bounds the nesting. -/
def runNested (invoke : Invoke) : (bound : Nat) → List Token → (depth : Nat) → Act (Option Nat)
  | 0, _, _ => return none
  | _ + 1, [], _ => return none
  | bound + 1, first :: rest, depth => do
    modify (openContext depth)
    if (← get).isIgnored first then return none
    let s := Statement.ofTokens (← get).registry.isLabel first rest
    match ← dispatch invoke s depth with
    | .following => return none
    | .line n => return some n
    | .nested skip => runNested invoke bound (s.args.drop skip) (depth + 1)

/-- Run a row of tokens; the answer is the line to go on with, if it is not the next one.  Afterwards only
the outermost context is left. -/
def runStatement (invoke : Invoke) (tokens : List Token) : Act (Option Nat) :=
  (runNested invoke tokens.length tokens 0).finally fun m => { m with contexts := m.contexts.take 1 }

/-- Run a line. -/
def runLine (invoke : Invoke) (line : String) : Act (Option Nat) := do
  let m ← get
  let tokens ← Act.ofExcept (tokenize m.registry.types (some (resolver m.symbols m.objects)) line)
  runStatement invoke tokens

end Machine

end LineScript
