/-
# Names in place

Each operation on names as the checks and the single writes that it is made of, in their order: on the tables and orders
of variables and functions, the calls, the iteration, and the mark of the body that is passed over.

* `declareInPlace_apply`, …, `iterateInPlace_apply`: no check that can fail stands behind a write, and the writes come
  to what the operation does at once;
* `Command.carryOut_eq_perform`: so it is for every operation.
-/
import LineScript.Proofs.Stores.InPlace
import LineScript.Proofs.Symbols.Typing

namespace LineScript

namespace Symbols

/-! ## Writes to names -/

/-- Write to the variables of one scope. -/
def onTable (isGlobal : Bool) (g : Catalog Variable → Catalog Variable) : InPlace Symbols Unit :=
  modify fun s => s.withTable isGlobal (g (s.table isGlobal))

/-- Write to the functions. -/
def onFunctions (g : Catalog Function → Catalog Function) : InPlace Symbols Unit :=
  modify fun s => { s with functions := g s.functions }

/-- Write to the calls. -/
def onCalls (g : Calls → Calls) : InPlace Symbols Unit := modify fun s => { s with calls := g s.calls }

/-- Declare a variable: a new one in the table and then in the order, else its value and then its mark. -/
def declareInPlace (name : String) (initial : Option Value) (isGlobal : Bool) : InPlace Symbols Reply := do
  let initial := initial.map Value.normalized
  match ((← get).table isGlobal).find? name with
  | none =>
    onTable isGlobal (·.put name { value := initial })
    onTable isGlobal (·.note name)
    return .done
  | some var =>
    if var.declared then throw (.variableDeclared name)
    else
      MonadExcept.ofExcept (forM initial (checkTag name var.value))
      onTable isGlobal (·.change name fun var => { var with value := var.value <|> initial })
      onTable isGlobal (·.change name fun var => { var with declared := true })
      return .done

/-- Assign a variable. -/
def assignInPlace (name : String) (value : Value) (isGlobal : Bool) : InPlace Symbols Reply := do
  let value := value.normalized
  let s ← get
  match if isGlobal then none else s.shadowing? name with
  | some frame => throw (.parameterReadOnly name frame.function)
  | none =>
    match (s.table isGlobal).find? name with
    | none => throw (.variableUnknown isGlobal name)
    | some var =>
      if var.isOpen then
        MonadExcept.ofExcept (checkTag name var.value value)
        onTable isGlobal (·.change name fun var => { var with value := some value })
        return .done
      else throw (.variablePending false name)

/-- Start to pass over the body of a function: the function comes first, then the mark. -/
def openBody (name : String) (params : List Parameter) (line : Nat) : InPlace Symbols Reply := do
  onFunctions (·.put name { start := line + 1, params := params })
  modify fun s => { s with declaring := some name }
  return .declared .skip

/-- Declare a function on a line.  A new name is noted before its function stands in the table. -/
def declareFunctionInPlace (name : String) (params : List Parameter) (line : Nat) : InPlace Symbols Reply := do
  match (← get).functions.find? name with
  | none =>
    onFunctions (·.note name)
    openBody name params line
  | some f =>
    if f.declared then throw (.functionDeclared name)
    else
      match f.finish with
      | some finish =>
        if f.start = line + 1 then
          onFunctions (·.change name fun f => { f with declared := true })
          onFunctions (·.change name fun f => { f with params := params })
          return .declared (.resume (finish + 1))
        else openBody name params line
      | none => openBody name params line

/-- One more running call, unless there are too many. -/
def pushCallInPlace (frame : Frame) : InPlace Symbols Unit := do
  if (← get).calls.length < maxCalls then onCalls (frame :: ·)
  else throw (.callDepth maxCalls frame.function)

/-- Call a function from a line. -/
def callInPlace (name : String) (args : List Value) (line : Nat) : InPlace Symbols Reply := do
  let f ← MonadExcept.ofExcept ((← get).callable name)
  if args.length ≠ f.params.length then throw (.callArity name f.params.length args.length)
  else
    let args := args.map Value.normalized
    MonadExcept.ofExcept (checkArguments name f.params args)
    pushCallInPlace ⟨name, line, (f.params.map (·.name)).zip args⟩
    return .started (some f.start)

/-- Return from the innermost call of a function.  The call is gone before the iteration is looked at, and the
iteration counts the round before it is known whether there is another one. -/
def finishCallInPlace (name : String) : InPlace Symbols Reply := do
  match (← get).function? name with
  | none => throw (.endUndeclared name)
  | some f =>
    match (← get).calls.head? with
    | none => return .returned .ignored
    | some frame =>
      if frame.function = name then
        onCalls List.tail
        let s ← get
        match s.endingRound? name (s.calls.length + 1) with
        | none => return .returned (.resume (frame.returnLine + 1))
        | some it =>
          modify fun s => { s with iteration := some { it with index := it.index + 1 } }
          match it.items[it.index + 1]?, f.params.head? with
          | some item, some p =>
            onCalls (⟨name, frame.returnLine, [(p.name, item)]⟩ :: ·)
            return .returned (.resume f.start)
          | _, _ =>
            modify fun s => { s with iteration := none }
            return .returned (.resume (frame.returnLine + 1))
      else return .returned .ignored

/-- Start an iteration from a line.  The first round is called before the iteration is noted. -/
def iterateInPlace (name : String) (items : List Value) (line : Nat) : InPlace Symbols Reply := do
  match (← get).iteration with
  | some it => throw (.iterationRunning name it.function)
  | none =>
    let f ← MonadExcept.ofExcept ((← get).callable name)
    match f.params.head? with
    | none => throw (.iterationNoParameter name)
    | some p =>
      let items := items.map Value.normalized
      match items.find? (!p.accepts ·) with
      | some bad => throw (.iterationType name p.name p.tagName bad)
      | none =>
        match items with
        | [] => return .started none
        | first :: _ =>
          pushCallInPlace ⟨name, line, [(p.name, first)]⟩
          modify fun s => { s with iteration := some ⟨name, items, 0, s.calls.length⟩ }
          return .started (some f.start)

/-- Carry out an operation in place; those that cannot fail change the store at once. -/
def Command.carryOut : Command → InPlace Symbols Reply
  | .declare name initial isGlobal => declareInPlace name initial isGlobal
  | .assign name value isGlobal => assignInPlace name value isGlobal
  | .provide name value => do modify (·.provide name value); return .done
  | .declareFunction name params line => declareFunctionInPlace name params line
  | .finishDeclaration line => do modify (·.finishDeclaration line); return .done
  | .call name args line => callInPlace name args line
  | .finishCall name => finishCallInPlace name
  | .iterate name items line => iterateInPlace name items line
  | .resetPass => do modify (·.resetPass); return .done
  | .clear => do modify (·.clear); return .done

/-! ## What the writes come to -/

variable {α : Type}

/-- Behind a check that succeeds only the rest counts. -/
theorem ok_bind {β : Type} (x : α) (k : α → Except Fault β) : ((.ok x : Except Fault α) >>= k) = k x := rfl

theorem onTable_bind_apply (isGlobal : Bool) (g : Catalog Variable → Catalog Variable)
    (k : Unit → InPlace Symbols α) (s : Symbols) :
    (onTable isGlobal g >>= k) s = k () (s.withTable isGlobal (g (s.table isGlobal))) := rfl

theorem onFunctions_bind_apply (g : Catalog Function → Catalog Function)
    (k : Unit → InPlace Symbols α) (s : Symbols) :
    (onFunctions g >>= k) s = k () { s with functions := g s.functions } := rfl

theorem onCalls_bind_apply (g : Calls → Calls) (k : Unit → InPlace Symbols α) (s : Symbols) :
    (onCalls g >>= k) s = k () { s with calls := g s.calls } := rfl

/-- Two writes to the variables of one scope come to one. -/
theorem withTable_withTable (s : Symbols) (isGlobal : Bool) (t u : Catalog Variable) :
    (s.withTable isGlobal t).withTable isGlobal u = s.withTable isGlobal u := by
  cases isGlobal <;> rfl

/-- The checks of a declaration stand before its writes, and these come to one entry. -/
theorem declareInPlace_apply (name : String) (initial : Option Value) (isGlobal : Bool) (s : Symbols) :
    declareInPlace name initial isGlobal s = s.perform (.declare name initial isGlobal) := by
  unfold declareInPlace perform declare
  rw [InPlace.get_bind_apply]
  dsimp only
  cases hfound : (s.table isGlobal).find? name with
  | none =>
    dsimp only
    rw [onTable_bind_apply, onTable_bind_apply, table_withTable, withTable_withTable, Catalog.note_put hfound]
    rfl
  | some var =>
    dsimp only
    by_cases hdeclared : var.declared = true
    · rw [if_pos hdeclared, if_pos hdeclared]
      rfl
    rw [if_neg hdeclared, if_neg hdeclared, InPlace.ofExcept_bind_apply]
    -- The value and the mark come to one entry; only the check depends on whether there is an initial value.
    simp only [onTable_bind_apply, table_withTable, withTable_withTable, Catalog.change_eq_enter hfound,
      Catalog.change_enter]
    cases initial with
    | none => rfl
    | some given =>
      rw [Option.map_some, Option.forM_some]
      dsimp only
      cases checkTag name var.value given.normalized with
      | error f => rfl
      | ok _ => rfl

/-- The checks of an assignment stand before its write. -/
theorem assignInPlace_apply (name : String) (value : Value) (isGlobal : Bool) (s : Symbols) :
    assignInPlace name value isGlobal s = s.perform (.assign name value isGlobal) := by
  unfold assignInPlace perform assign
  rw [InPlace.get_bind_apply]
  dsimp only
  generalize (if isGlobal = true then none else s.shadowing? name) = hidden
  cases hidden with
  | some frame => rfl
  | none =>
    dsimp only
    cases hfound : (s.table isGlobal).find? name with
    | none => rfl
    | some var =>
      dsimp only
      by_cases hopen : var.isOpen = true
      · rw [if_pos hopen, if_pos hopen, InPlace.ofExcept_bind_apply]
        cases checkTag name var.value value.normalized with
        | error f => rfl
        | ok _ =>
          dsimp only
          rw [onTable_bind_apply, Catalog.change_eq_enter hfound]
          rfl
      · rw [if_neg hopen, if_neg hopen]
        rfl

theorem openBody_apply (name : String) (params : List Parameter) (line : Nat) (s : Symbols) :
    openBody name params line s = (.ok (.declared .skip), { s with
      functions := s.functions.put name { start := line + 1, params := params }
      declaring := some name }) := rfl

/-- A function that is still declared is refused before anything is written.  The writes for another one come to one
entry and, when its body is passed over, the mark. -/
theorem declareFunctionInPlace_apply (name : String) (params : List Parameter) (line : Nat) (s : Symbols) :
    declareFunctionInPlace name params line s = s.perform (.declareFunction name params line) := by
  unfold declareFunctionInPlace perform declareFunction
  rw [InPlace.get_bind_apply]
  dsimp only
  cases hfound : s.functions.find? name with
  | none =>
    dsimp only
    rw [onFunctions_bind_apply, openBody_apply, Catalog.put_note, Catalog.note_put hfound]
    rfl
  | some f =>
    have hput (g : Function) : s.functions.put name g = s.functions.enter name g :=
      Catalog.put_eq_enter (by rw [hfound]; rfl) g
    -- Taken apart, so that the case of its last line reaches the fields that the writes copy.
    obtain ⟨start, finish, held, declared, ended⟩ := f
    dsimp only
    by_cases hdeclared : declared = true
    · rw [if_pos hdeclared, if_pos hdeclared]
      rfl
    rw [if_neg hdeclared, if_neg hdeclared]
    cases finish with
    | none =>
      dsimp only
      rw [openBody_apply, hput]
      rfl
    | some finish =>
      dsimp only
      by_cases hstart : start = line + 1
      · rw [if_pos hstart, if_pos hstart, onFunctions_bind_apply, onFunctions_bind_apply,
          Catalog.change_eq_enter hfound, Catalog.change_enter]
        rfl
      · rw [if_neg hstart, if_neg hstart, openBody_apply, hput]
        rfl

/-- A call that is one too many is refused before it is pushed. -/
theorem pushCallInPlace_bind_apply (frame : Frame) (k : Unit → InPlace Symbols α) (s : Symbols) :
    (pushCallInPlace frame >>= k) s = match s.pushCall frame with
      | .ok s' => k () s'
      | .error f => (.error f, s) := by
  rw [InPlace.bind_apply]
  unfold pushCallInPlace pushCall
  rw [InPlace.get_bind_apply]
  by_cases hdepth : s.calls.length < maxCalls
  · rw [if_pos hdepth, if_pos hdepth]
    rfl
  · rw [if_neg hdepth, if_neg hdepth]
    rfl

/-- The checks of a call stand before its frame. -/
theorem callInPlace_apply (name : String) (args : List Value) (line : Nat) (s : Symbols) :
    callInPlace name args line s = s.perform (.call name args line) := by
  unfold callInPlace perform call
  dsimp only
  rw [InPlace.get_bind_apply, InPlace.ofExcept_bind_apply]
  cases s.callable name with
  | error f => rfl
  | ok f =>
    rw [ok_bind]
    dsimp only
    by_cases harity : args.length ≠ f.params.length
    · rw [if_pos harity, if_pos harity]
      rfl
    rw [if_neg harity, if_neg harity, InPlace.ofExcept_bind_apply]
    cases checkArguments name f.params (args.map Value.normalized) with
    | error fault => rfl
    | ok _ =>
      rw [ok_bind]
      dsimp only
      rw [pushCallInPlace_bind_apply]
      cases s.pushCall ⟨name, line, (f.params.map (·.name)).zip (args.map Value.normalized)⟩ with
      | error fault => rfl
      | ok s' => rfl

/-- A return checks one thing, before it writes: that its function is declared. -/
theorem finishCallInPlace_apply (name : String) (s : Symbols) :
    finishCallInPlace name s = s.perform (.finishCall name) := by
  unfold finishCallInPlace perform finishCall
  dsimp only
  rw [InPlace.get_bind_apply]
  cases s.function? name with
  | none => rfl
  | some f =>
    dsimp only
    rw [InPlace.get_bind_apply]
    cases hcalls : s.calls with
    | nil => rfl
    | cons frame outer =>
      rw [List.head?_cons]
      dsimp only
      by_cases hname : frame.function = name
      · rw [if_pos hname, if_pos hname, onCalls_bind_apply, InPlace.get_bind_apply, hcalls, List.tail_cons]
        -- The calls do not decide whether the round of the iteration ends, only how many there are.
        have hround : ({ s with calls := outer } : Symbols).endingRound? name (outer.length + 1) =
            s.endingRound? name (outer.length + 1) := rfl
        rw [hround]
        cases s.endingRound? name (outer.length + 1) with
        | none => rfl
        | some it =>
          dsimp only
          rw [InPlace.modify_bind_apply]
          cases it.items[it.index + 1]? with
          | none => rfl
          | some item =>
            cases f.params.head? with
            | none => rfl
            | some p => rfl
      · rw [if_neg hname, if_neg hname]
        rfl

/-- The checks of an iteration, the one for a running iteration first, stand before its first round. -/
theorem iterateInPlace_apply (name : String) (items : List Value) (line : Nat) (s : Symbols) :
    iterateInPlace name items line s = s.perform (.iterate name items line) := by
  unfold iterateInPlace perform iterate
  dsimp only
  rw [InPlace.get_bind_apply]
  cases s.iteration with
  | some it => rfl
  | none =>
    dsimp only
    rw [InPlace.get_bind_apply, InPlace.ofExcept_bind_apply]
    cases s.callable name with
    | error f => rfl
    | ok f =>
      rw [ok_bind]
      dsimp only
      cases f.params.head? with
      | none => rfl
      | some p =>
        dsimp only
        cases (items.map Value.normalized).find? (!p.accepts ·) with
        | some bad => rfl
        | none =>
          dsimp only
          cases items.map Value.normalized with
          | nil => rfl
          | cons first rest =>
            dsimp only
            rw [pushCallInPlace_bind_apply]
            cases s.pushCall ⟨name, line, [(p.name, first)]⟩ with
            | error fault => rfl
            | ok s' => rfl

/-- **An operation in place does what it does at once.** -/
theorem Command.carryOut_eq_perform (c : Command) (s : Symbols) : c.carryOut s = s.perform c := by
  cases c with
  | declare name initial isGlobal => exact declareInPlace_apply name initial isGlobal s
  | assign name value isGlobal => exact assignInPlace_apply name value isGlobal s
  | provide name value => rfl
  | declareFunction name params line => exact declareFunctionInPlace_apply name params line s
  | finishDeclaration line => rfl
  | call name args line => exact callInPlace_apply name args line s
  | finishCall name => exact finishCallInPlace_apply name s
  | iterate name items line => exact iterateInPlace_apply name items line s
  | resetPass => rfl
  | clear => rfl

end Symbols

end LineScript
