/-
# The rows that a row of tokens comes to

Conditions and alternatives go on with code in their own arguments, so one row of tokens can execute several
statements.  `Machine.rows` lists the rows that it comes to, the outermost first, each with the machine that executes it.

* `runNested_bound`: the bound of the nesting makes no difference as long as it is at least the length of the row;
* `reached_of_mem_rows`: each row is the end of the first one, and it is reached with nothing changed but contexts;
* `runNested_of_mem_rows`: the whole row ends as the last one of them does.

Main statement: a row that transfers no control goes on with the next line, and declares no function
(`Plain.runNested_of_stays`).
-/
import LineScript.Proofs.Machine.Turn

namespace LineScript

open Act

/-! ## Rows -/

/-- A row of tokens, its nesting level, and the machine that is about to execute it. -/
structure Row where
  depth : Nat
  machine : Machine
  first : Token
  rest : List Token

namespace Row

/-- The script asks to skip the row. -/
def ignored (r : Row) : Bool := r.machine.isIgnored r.first

/-- The statement that the row is. -/
def statement (r : Row) : Statement := Statement.ofTokens r.machine.registry.isLabel r.first r.rest

/-- Run the statement, without the code nested in it. -/
def dispatch (inv : Invoke) (r : Row) : Except Fault Next × Machine :=
  Machine.dispatch inv r.statement r.depth r.machine

end Row

namespace Machine

/-- The row that some tokens are on a nesting level. -/
def row (first : Token) (rest : List Token) (depth : Nat) (m : Machine) : Row :=
  ⟨depth, m.openContext depth, first, rest⟩

/-- The rows that a row of tokens comes to, from the outermost to the innermost.  The last one may be ignored, or
fail. -/
def rows (inv : Invoke) : (bound : Nat) → List Token → (depth : Nat) → Machine → List Row
  | 0, _, _, _ => []
  | _ + 1, [], _, _ => []
  | bound + 1, first :: rest, depth, m =>
    let r := m.row first rest depth
    r :: if r.ignored then [] else
      match r.dispatch inv with
      | (.ok (.nested skip), k) => rows inv bound (r.statement.args.drop skip) (depth + 1) k
      | _ => []

@[simp] theorem row_ignored (first : Token) (rest : List Token) (depth : Nat) (m : Machine) :
    (m.row first rest depth).ignored = m.isIgnored first := by
  unfold row Row.ignored openContext
  split_ifs <;> rfl

theorem row_statement (first : Token) (rest : List Token) (depth : Nat) (m : Machine) :
    (m.row first rest depth).statement = Statement.ofTokens m.registry.isLabel first rest := by
  unfold row Row.statement openContext
  split_ifs <;> rfl

/-- Running a row, said of the row. -/
theorem runNested_row (inv : Invoke) (bound : Nat) (first : Token) (rest : List Token) (depth : Nat) (m : Machine) :
    runNested inv (bound + 1) (first :: rest) depth m =
      if (m.row first rest depth).ignored then (.ok none, (m.row first rest depth).machine)
      else (Machine.dispatch inv (m.row first rest depth).statement depth >>=
        follow inv bound (m.row first rest depth).statement.args depth) (m.row first rest depth).machine := by
  rw [row_ignored, row_statement]
  exact runNested_cons inv bound first rest depth m

/-- **The bound of the nesting makes no difference** as long as it is at least the length of the row, since nested code
is shorter than the row that it is nested in. -/
theorem runNested_bound (inv : Invoke) {bound bound' : Nat} {tokens : List Token} (h : tokens.length ≤ bound)
    (h' : tokens.length ≤ bound') (depth : Nat) (m : Machine) :
    runNested inv bound tokens depth m = runNested inv bound' tokens depth m := by
  induction bound generalizing bound' tokens depth m with
  | zero =>
    obtain rfl : tokens = [] := List.eq_nil_of_length_eq_zero (by omega)
    cases bound' <;> rfl
  | succ bound ih =>
    cases tokens with
    | nil => cases bound' <;> rfl
    | cons first rest =>
      obtain ⟨bound', rfl⟩ : ∃ b, bound' = b + 1 := ⟨bound' - 1, by simp only [List.length_cons] at h'; omega⟩
      simp only [List.length_cons, Nat.add_le_add_iff_right] at h h'
      have hargs := Statement.length_args_le m.registry.isLabel first rest
      rw [runNested_cons, runNested_cons, bind_apply, bind_apply]
      split_ifs
      · rfl
      · rcases dispatch inv (Statement.ofTokens m.registry.isLabel first rest) depth (m.openContext depth) with
          ⟨f | next, k⟩
        · rfl
        · cases next with
          | following => rfl
          | line n => rfl
          | nested skip =>
            have hshorter := List.length_drop (l := (Statement.ofTokens m.registry.isLabel first rest).args) (i := skip)
            exact ih (by omega) (by omega) (depth + 1) k

/-- **How rows are reached**: the first row at once, and what is nested in a row when the row goes on with it. -/
theorem mem_rows {inv : Invoke} {bound : Nat} {tokens : List Token} {depth : Nat} {m : Machine} {r : Row}
    (h : r ∈ rows inv bound tokens depth m) : ∃ bound' first rest, bound = bound' + 1 ∧ tokens = first :: rest ∧
      (r = m.row first rest depth ∨ (m.row first rest depth).ignored = false ∧
        ∃ skip k, (m.row first rest depth).dispatch inv = (.ok (.nested skip), k) ∧
          r ∈ rows inv bound' ((m.row first rest depth).statement.args.drop skip) (depth + 1) k) := by
  cases bound with
  | zero => cases h
  | succ bound =>
    cases tokens with
    | nil => cases h
    | cons first rest =>
      refine ⟨bound, first, rest, rfl, rfl, ?_⟩
      rw [rows] at h
      rcases List.mem_cons.mp h with rfl | hinner
      · exact Or.inl rfl
      · right
        cases hignored : (m.row first rest depth).ignored with
        | true =>
          rw [hignored, if_pos rfl] at hinner
          cases hinner
        | false =>
          rw [hignored, if_neg Bool.false_ne_true] at hinner
          split at hinner
          · rename_i skip k hdispatch
            exact ⟨rfl, skip, k, hdispatch, hinner⟩
          · cases hinner

/-- **What is known of a row that is reached**: it is the end of the first row, and nothing but contexts has changed. -/
structure Reached (tokens : List Token) (m : Machine) (r : Row) : Prop where
  suffix : r.first :: r.rest <:+ tokens
  machine_eq : ∃ cs, r.machine = m.withContexts cs

theorem reached_row (first : Token) (rest : List Token) (depth : Nat) (m : Machine) :
    Reached (first :: rest) m (m.row first rest depth) := by
  obtain ⟨cs, hopen, -⟩ := m.openContext_eq_withContexts depth
  exact ⟨List.suffix_rfl, cs, hopen⟩

/-- The code nested in a row is the end of the row. -/
theorem nested_suffix (first : Token) (rest : List Token) (depth skip : Nat) (m : Machine) :
    (m.row first rest depth).statement.args.drop skip <:+ first :: rest := by
  rw [row_statement]
  obtain ⟨leading, htokens, -⟩ := Statement.tokens_eq m.registry.isLabel first rest
  rw [htokens]
  exact (List.drop_suffix _ _).trans ((List.suffix_cons _ _).trans (List.suffix_append _ _))

theorem reached_of_mem_rows {inv : Invoke} {bound : Nat} {tokens : List Token} {depth : Nat} {m : Machine} {r : Row}
    (h : r ∈ rows inv bound tokens depth m) : Reached tokens m r := by
  induction bound generalizing tokens depth m with
  | zero => cases h
  | succ bound ih =>
    obtain ⟨bound', first, rest, hbound, rfl, rfl | ⟨-, skip, k, hdispatch, hinner⟩⟩ := mem_rows h
    · exact reached_row first rest depth m
    · obtain rfl : bound = bound' := Nat.succ.inj hbound
      obtain ⟨hsuffix, cs, hmachine⟩ := ih hinner
      obtain ⟨-, cs', -, hk⟩ := dispatch_nested hdispatch
      obtain ⟨cs'', hrow⟩ := (reached_row first rest depth m).machine_eq
      refine ⟨hsuffix.trans (nested_suffix first rest depth skip m), cs, ?_⟩
      rw [hmachine, hk, hrow]
      rfl

/-- Rows of a plain machine are executed by plain machines, and the context of their level is there. -/
theorem Plain.of_mem_rows {inv : Invoke} {bound : Nat} {tokens : List Token} {depth : Nat} {m : Machine} {r : Row}
    (hm : m.Plain) (hdepth : depth ≤ m.contexts.length) (h : r ∈ rows inv bound tokens depth m) :
    r.machine.Plain ∧ r.depth < r.machine.contexts.length := by
  induction bound generalizing tokens depth m with
  | zero => cases h
  | succ bound ih =>
    obtain ⟨bound', first, rest, hbound, rfl, hrow⟩ := mem_rows h
    have hplain : (m.row first rest depth).machine.Plain := hm.openContext depth
    have hlevel : depth < (m.row first rest depth).machine.contexts.length := by
      obtain ⟨cs, hopen, hopened⟩ := m.openContext_eq_withContexts depth
      show depth < (m.openContext depth).contexts.length
      rw [hopen]
      exact hopened hdepth
    rcases hrow with rfl | ⟨-, skip, k, hdispatch, hinner⟩
    · exact ⟨hplain, hlevel⟩
    · obtain rfl : bound = bound' := Nat.succ.inj hbound
      obtain ⟨-, cs, hlength, hk⟩ := dispatch_nested hdispatch
      refine ih (hplain.dispatch hdispatch) ?_ hinner
      rw [hk]
      exact hlength ▸ hlevel

/-- **The whole row ends as the last row that it comes to**: it succeeds when this one is ignored, and fails with it. -/
theorem runNested_of_mem_rows {inv : Invoke} {bound : Nat} {tokens : List Token} {depth : Nat} {m : Machine} {r : Row}
    (h : r ∈ rows inv bound tokens depth m) :
    (r.ignored = true → runNested inv bound tokens depth m = (.ok none, r.machine)) ∧
    (r.ignored = false → ∀ f k, r.dispatch inv = (.error f, k) →
      runNested inv bound tokens depth m = (.error f, k)) := by
  induction bound generalizing tokens depth m with
  | zero => cases h
  | succ bound ih =>
    obtain ⟨bound', first, rest, hbound, rfl, rfl | ⟨hrow, skip, k, hdispatch, hinner⟩⟩ := mem_rows h
    · rw [runNested_row]
      constructor
      · intro hignored
        rw [if_pos hignored]
      · intro hignored f k hfails
        rw [if_neg (by rw [hignored]; exact Bool.false_ne_true)]
        exact bind_of_error hfails
    · obtain rfl : bound = bound' := Nat.succ.inj hbound
      have hgoes : runNested inv (bound + 1) (first :: rest) depth m =
          runNested inv bound ((m.row first rest depth).statement.args.drop skip) (depth + 1) k := by
        rw [runNested_row, if_neg (by rw [hrow]; exact Bool.false_ne_true)]
        exact bind_of_ok hdispatch
      rw [hgoes]
      exact ih hinner

end Machine

/-! ## Code that transfers no control -/

/-- A statement whose keyword, if it is a built-in one, cannot transfer control. -/
def Statement.Stays (s : Statement) : Prop :=
  ∀ b, Builtin.ofName? s.keyword.text = some b → b.transfersControl = false

instance (s : Statement) : Decidable s.Stays :=
  decidable_of_iff (∀ b ∈ Builtin.ofName? s.keyword.text, b.transfersControl = false) Iff.rfl

namespace Machine

/-- The same function is being declared, or none is. -/
def SameDeclaring (m k : Machine) : Prop := k.symbols.declaring = m.symbols.declaring

instance overlookingStores_sameDeclaring : OverlookingStores SameDeclaring where
  refl _ := rfl
  trans h h' := h'.trans h
  emit _ _ := rfl
  contexts _ _ := rfl
  table m isGlobal t := by cases isGlobal <;> rfl
  objects _ _ := rfl
  print _ _ := rfl
  opened _ _ _ := rfl

/-- A keyword that cannot transfer control keeps what overlooks the stores and the mode of the run. -/
theorem keeps_staying {R : Machine → Machine → Prop} [OverlookingStores R]
    (hmode : ∀ (m : Machine) (mode : Mode), R m { m with mode := mode }) {b : Builtin} (hb : b.transfersControl = false)
    (i : Invocation) (depth : Nat) : Keeps R (runBuiltin b i depth) := by
  cases hsteady : b.isSteady with
  | true => exact keeps_runStoring hsteady (by rintro rfl; cases hb) i depth
  | false =>
    -- Only the two keywords that halt or wait are left.
    cases b with
    | pause => exact keeps_get fun m => keeps_bind (keeps_ofExcept _) fun _ =>
        keeps_bind (keeps_modify fun m => hmode m _) fun _ => keeps_pure _
    | awaitKey => exact keeps_bind (keeps_modify fun m => hmode m _) fun _ => keeps_pure _
    | execute | finish | iterate | stop | restart => cases hb
    | _ => cases hsteady

/-- A keyword that cannot transfer control declares no function. -/
theorem keeps_declaring {b : Builtin} (hb : b.transfersControl = false) (i : Invocation) (depth : Nat) :
    Keeps SameDeclaring (runBuiltin b i depth) :=
  keeps_staying (fun _ _ => rfl) hb i depth

/-- A keyword that opens code goes on with this code or with the next line. -/
theorem answers_opensCode {b : Builtin} (hb : b.opensCode = true) (i : Invocation) (depth : Nat) :
    Answers (·.line? = none) (runBuiltin b i depth) := by
  have hchoice : ∀ (c : Bool) (skip : Nat), (if c then Next.nested skip else .following).line? = none := by
    rintro (_ | _) skip <;> rfl
  have hcondition : Answers (·.line? = none) (runCondition i depth) :=
    answers_get fun _ => answers_bind fun satisfied => answers_bind fun _ => answers_bind fun _ => answers_pure (hchoice satisfied 3)
  have hotherwise : ∀ c : Bool, Answers (·.line? = none) (pure (if c then .following else .nested 0) : Act Next) := by
    rintro (_ | _) <;> exact answers_pure rfl
  cases b with
  | condition => exact hcondition
  | otherwise =>
    refine answers_bind fun c => ?_
    dsimp only
    split
    · exact answers_bind fun _ => hotherwise _
    · exact hotherwise _
  | continuation =>
    refine answers_bind fun c => ?_
    split
    · split
      · exact answers_pure rfl
      · exact answers_bind fun _ => hcondition
    · exact hotherwise _
    · exact answers_bind fun _ => answers_pure rfl
    · exact answers_throw _
  | _ => cases hb

theorem answers_stays {b : Builtin} (hb : b.transfersControl = false) (i : Invocation) (depth : Nat) :
    Answers (·.line? = none) (runBuiltin b i depth) := by
  cases hopens : b.opensCode with
  | true => exact answers_opensCode hopens i depth
  | false =>
    exact answers_runBuiltin (P := (·.line? = none)) hopens rfl (fun h => absurd (h.symm.trans hb) (by decide)) i depth

/-- A statement that cannot transfer control goes on with its code or with the next line. -/
theorem Plain.dispatch_of_stays {m k : Machine} (hm : m.Plain) {inv : Invoke} {s : Statement} {depth : Nat}
    {next : Next} (hs : s.Stays) (h : Machine.dispatch inv s depth m = (.ok next, k)) :
    next.line? = none ∧ m.SameDeclaring k := by
  obtain ⟨k', hrun, rfl⟩ := dispatch_eq_ok h
  have hleave : SameDeclaring k' (k'.leaveContext s.keyword.text depth) :=
    congrArg Symbols.declaring (leaveContext_symbols s.keyword.text depth k')
  rcases hm.runKeyword_eq_ok hrun with ⟨_, e, -, rfl, rfl⟩ | ⟨-, b, hb, -, hbuiltin⟩
  · exact ⟨rfl, hleave⟩
  · refine ⟨(answers_stays (hs b hb) _ depth m).of_ok hbuiltin, ?_⟩
    exact hleave.trans ((keeps_declaring (hs b hb) _ depth m).of_ok hbuiltin)

/-- **Code that transfers no control goes on with the next line and declares no function**, by induction on the bound
of the nesting. -/
theorem Plain.runNested_of_stays {inv : Invoke} (bound : Nat) {tokens : List Token} {depth : Nat} {m k : Machine}
    {next : Option Nat} (hm : m.Plain) (hstays : ∀ r ∈ rows inv bound tokens depth m, r.statement.Stays)
    (h : runNested inv bound tokens depth m = (.ok next, k)) : next = none ∧ m.SameDeclaring k := by
  induction bound generalizing tokens depth m with
  | zero =>
    cases h
    exact ⟨rfl, rfl⟩
  | succ bound ih =>
    cases tokens with
    | nil =>
      cases h
      exact ⟨rfl, rfl⟩
    | cons first rest =>
      have hopen : m.SameDeclaring (m.openContext depth) := by
        unfold Machine.openContext
        split_ifs <;> rfl
      rw [runNested_row] at h
      rw [rows] at hstays
      cases hignored : (m.row first rest depth).ignored with
      | true =>
        rw [hignored, if_pos rfl] at h
        cases h
        exact ⟨rfl, hopen⟩
      | false =>
        rw [hignored, if_neg Bool.false_ne_true] at h hstays
        obtain ⟨step, k', hrun, hgoes⟩ := bind_eq_ok h
        have hrow : (m.row first rest depth).dispatch inv = (.ok step, k') := hrun
        rw [hrow] at hstays
        have hplain := hm.openContext depth
        obtain ⟨hline, hkept⟩ := hplain.dispatch_of_stays (hstays _ List.mem_cons_self) hrun
        replace hkept : m.SameDeclaring k' := hkept.trans hopen
        cases step with
        | following =>
          cases hgoes
          exact ⟨rfl, hkept⟩
        | line n => cases hline
        | nested skip =>
          have hnested := fun r hr => hstays r (List.mem_cons_of_mem _ hr)
          obtain ⟨hnone, hinner⟩ := ih (hplain.dispatch hrun) hnested hgoes
          exact ⟨hnone, hinner.trans hkept⟩

end Machine

end LineScript
