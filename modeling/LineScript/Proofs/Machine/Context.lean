/-
# What a statement leaves to the next one

The outermost context (`Machine.level`) is one record that lasts from line to line.  Code nested in a statement
works on inner contexts, so what a line leaves in the outermost one is the work of its own keyword, unless the
nested code resets the machine (`Plain.runNested_head?`).

* `Plain.runLine_of_statement` takes a line apart: its statement, then the nested code;
* `Plain.dispatch_if`, `Plain.dispatch_continuation`, `Plain.dispatch_property` and `Plain.dispatch_other` say
  what each kind of keyword leaves, and `Plain.dispatch_level` sums them up.
-/
import LineScript.Proofs.Machine.Reachable

namespace LineScript

open Act

namespace Machine

/-! ## The outermost context -/

/-- The context that lasts from line to line. -/
def level (m : Machine) : Context := m.contexts.headD {}

theorem level_of_head? {m m' : Machine} (h : m'.contexts.head? = m.contexts.head?) :
    m'.level = m.level := by
  rw [level, level, List.headD_eq_head?_getD, List.headD_eq_head?_getD, h]

theorem Plain.head? {m : Machine} (hm : m.Plain) : m.contexts.head? = some m.level := by
  cases h : m.contexts with
  | nil => exact absurd h hm.nonempty
  | cons c cs => simp [level, h]

theorem Plain.getElem?_zero {m : Machine} (hm : m.Plain) : m.contexts[0]? = some m.level := by
  rw [← List.head?_eq_getElem?, hm.head?]

theorem Plain.level_coherent {m : Machine} (hm : m.Plain) : m.level.Coherent :=
  hm.coherent _ (List.mem_of_head? hm.head?)

/-- A change of an inner context does not concern the outermost one. -/
theorem head?_modify_succ (cs : List Context) (depth : Nat) (f : Context → Context) :
    (cs.modify (depth + 1) f).head? = cs.head? := by
  cases cs <;> rfl

theorem level_modify_zero {m : Machine} (hm : m.contexts ≠ []) (f : Context → Context) :
    (m.changeContext 0 f).level = f m.level := by
  cases h : m.contexts with
  | nil => exact absurd h hm
  | cons c cs => simp [level, changeContext, h]

/-- No statement that leaves contexts alone changes them. -/
theorem congruence_contexts (cs : List Context) :
    Congruence fun m m' => m' = m ∧ m.contexts = cs := by
  refine .of_kept fun w h => ?_
  cases w <;> exact h

theorem runQuiet_contexts {b : Builtin} (hb : b.isQuiet = true) (i : Invocation) (depth : Nat)
    (m : Machine) : (runBuiltin b i depth m).2.contexts = m.contexts :=
  ((congruence_contexts m.contexts).agree_runQuiet hb i depth m m ⟨rfl, rfl⟩).2.2

/-! ## Keywords that succeed -/

theorem warn_eq_ok {c : Caution} {m k : Machine} (h : warn c m = (.ok (), k)) :
    ∃ e, k = m.emit e := by
  unfold warn at h
  rw [get_bind_apply] at h
  split_ifs at h
  · cases h
  · exact ⟨_, (congrArg Prod.snd h).symm⟩

theorem context_apply (depth : Nat) (m : Machine) :
    context depth m = match m.contexts[depth]? with
      | some c => (.ok c, m)
      | none => (.error (.contextAbsent depth), m) := by
  rw [context, get_bind_apply]
  cases m.contexts[depth]? <;> rfl

theorem context_of_some {depth : Nat} {m : Machine} {c : Context} (hc : m.contexts[depth]? = some c) :
    context depth m = (.ok c, m) := by
  rw [context_apply, hc]

/-- Reading the context of a level changes nothing. -/
theorem context_eq_ok {depth : Nat} {m k : Machine} {c : Context}
    (h : context depth m = (.ok c, k)) : m.contexts[depth]? = some c ∧ m = k := by
  rw [context_apply] at h
  cases hc : m.contexts[depth]? with
  | none =>
    rw [hc] at h
    cases h
  | some c' =>
    rw [hc] at h
    cases h
    exact ⟨rfl, rfl⟩

/-- A condition that is evaluated leaves its truth in the context of its level and nothing else. -/
theorem runCondition_eq_ok {i : Invocation} {depth : Nat} {m k : Machine} {step : Next}
    (h : runCondition i depth m = (.ok step, k)) :
    ∃ satisfied, holds m.search i = .ok satisfied ∧
      k = m.changeContext depth ({ · with satisfied := satisfied }) ∧
      step = if satisfied then .nested 3 else .following := by
  unfold runCondition at h
  rw [get_bind_apply] at h
  obtain ⟨satisfied, _, htruth, hrest⟩ := bind_eq_ok h
  obtain ⟨hholds, rfl⟩ := ofExcept_eq_ok htruth
  obtain ⟨c, _, hcontext, hlast⟩ := bind_eq_ok hrest
  obtain ⟨-, rfl⟩ := context_eq_ok hcontext
  rw [modify_bind_apply, pure_apply] at hlast
  cases hlast
  exact ⟨satisfied, hholds, rfl, rfl⟩

/-- A continuation goes by the keyword that its context remembers. -/
theorem runContinuation_apply {i : Invocation} {depth : Nat} {m : Machine} {c : Context}
    (hc : m.contexts[depth]? = some c) :
    runContinuation i depth m =
      (if c.lastKeyword = some "if" then
        if c.satisfied then pure .following
        else do
          Act.ofExcept (validate "|" conditionDescriptors i.args)
          runCondition i depth
      else if c.lastKeyword = some "else" then pure (if c.satisfied then .following else .nested 0)
      else if c.lastKeyword = some "class" then do
        addProperty i
        return .following
      else throw .continuationAlone : Act Next) m := by
  rw [runContinuation, bind_of_ok (context_of_some hc)]
  refine congrFun ?_ m
  split
  · rename_i hkeyword
    rw [if_pos hkeyword]
  · rename_i hkeyword
    simp [hkeyword]
  · rename_i hkeyword
    simp [hkeyword]
  · rename_i hif helse hclass
    rw [if_neg hif, if_neg helse, if_neg hclass]

/-- What continues an `if` evaluates its own condition, unless one has held before. -/
theorem runContinuation_if {i : Invocation} {depth : Nat} {m k : Machine} {step : Next} {c : Context}
    (hc : m.contexts[depth]? = some c) (hif : c.lastKeyword = some "if")
    (h : runContinuation i depth m = (.ok step, k)) :
    (c.satisfied = true ∧ k = m ∧ step = .following) ∨
      (c.satisfied = false ∧ runCondition i depth m = (.ok step, k)) := by
  rw [runContinuation_apply hc, if_pos hif] at h
  cases hsat : c.satisfied with
  | true =>
    rw [hsat, if_pos rfl] at h
    cases h
    exact Or.inl ⟨rfl, rfl, rfl⟩
  | false =>
    rw [hsat, if_neg Bool.false_ne_true] at h
    obtain ⟨_, _, hvalid, hrun⟩ := bind_eq_ok h
    obtain ⟨-, rfl⟩ := ofExcept_eq_ok hvalid
    exact Or.inr ⟨rfl, hrun⟩

/-- What continues another statement leaves the contexts alone. -/
theorem runContinuation_other {i : Invocation} {depth : Nat} {m k : Machine} {step : Next} {c : Context}
    (hc : m.contexts[depth]? = some c) (hif : c.lastKeyword ≠ some "if")
    (h : runContinuation i depth m = (.ok step, k)) : k.contexts = m.contexts := by
  rw [runContinuation_apply hc, if_neg hif] at h
  by_cases helse : c.lastKeyword = some "else"
  · rw [if_pos helse] at h
    cases h
    rfl
  rw [if_neg helse] at h
  split_ifs at h with hclass
  · obtain ⟨_, s, hadd, hlast⟩ := bind_eq_ok h
    have hsame := ((congruence_contexts m.contexts).agree_addProperty i m m ⟨rfl, rfl⟩).2.2
    rw [hadd] at hsame
    cases hlast
    exact hsame
  · cases h

/-- A property line succeeds only behind an object or a property of one. -/
theorem runProperty_eq_ok {i : Invocation} {depth : Nat} {m k : Machine} {step : Next} {c : Context}
    (hc : m.contexts[depth]? = some c) (h : runProperty i depth m = (.ok step, k)) :
    c.lastKeyword = some "object" := by
  by_contra hother
  have hfails : runProperty i depth m = (throw .propertyWithoutObject : Act Next) m := by
    rw [runProperty, bind_of_ok (context_of_some hc), get_bind_apply]
    refine congrFun ?_ m
    split
    · rename_i hobject _
      exact absurd hobject hother
    · rfl
  rw [hfails] at h
  cases h

/-! ## Nested code -/

/-- A keyword on an inner level leaves the outermost context alone, or it resets the machine. -/
theorem runBuiltin_head? {b : Builtin} {i : Invocation} {depth : Nat} {m k : Machine} {step : Next}
    (h : runBuiltin b i (depth + 1) m = (.ok step, k)) :
    k.contexts.head? = m.contexts.head? ∨
      (step = .line 0 ∧ k.symbols.calls = [] ∧ k.contexts.head? = some {}) := by
  have hcondition : ∀ {k : Machine} {step : Next}, runCondition i (depth + 1) m = (.ok step, k) →
      k.contexts.head? = m.contexts.head? := by
    intro k step hrun
    obtain ⟨satisfied, -, rfl, -⟩ := runCondition_eq_ok hrun
    exact head?_modify_succ m.contexts depth _
  cases hb : b.isQuiet with
  | true =>
    have hsame := runQuiet_contexts hb i (depth + 1) m
    rw [h] at hsame
    exact Or.inl (congrArg List.head? hsame)
  | false =>
    -- The keywords that touch contexts: two decide on their own level, two drop all levels.
    cases b with
    | condition => exact Or.inl (hcondition h)
    | continuation =>
      left
      obtain ⟨c, _, hcontext, -⟩ := bind_eq_ok (show runContinuation i (depth + 1) m = _ from h)
      obtain ⟨hc, -⟩ := context_eq_ok hcontext
      by_cases hif : c.lastKeyword = some "if"
      · rcases runContinuation_if hc hif h with ⟨-, rfl, -⟩ | ⟨-, hrun⟩
        · rfl
        · exact hcondition hrun
      · rw [runContinuation_other hc hif h]
    | stop =>
      cases h
      exact Or.inr ⟨rfl, rfl, rfl⟩
    | restart =>
      cases h
      refine Or.inr ⟨rfl, ?_⟩
      dsimp only
      split_ifs <;> exact ⟨rfl, rfl⟩
    | _ => cases hb

/-- A plain machine has no keyword of an extension. -/
theorem Plain.find?_keyword {m : Machine} (hm : m.Plain) (keyword : String) :
    m.registry.keywords.find? keyword = none := by
  rw [Roster.find?, hm.keywords]
  rfl

/-- A built-in keyword that no extension has taken over runs on checked arguments. -/
theorem runKeyword_builtin {m : Machine} (inv : Invoke) {i : Invocation} (depth : Nat) {b : Builtin}
    (hfree : m.registry.keywords.find? i.keyword = none) (hold : replacements.lookup i.keyword = none)
    (hb : Builtin.ofName? i.keyword = some b) :
    runKeyword inv i depth m =
      (Act.ofExcept (validate i.keyword b.descriptors i.args) >>= fun _ => runBuiltin b i depth) m := by
  unfold runKeyword
  rw [hold]
  dsimp only
  rw [get_bind_apply, hfree]
  dsimp only
  rw [hb]

/-- A built-in keyword of a plain machine runs on checked arguments. -/
theorem Plain.runKeyword_builtin {m : Machine} (hm : m.Plain) (inv : Invoke) {i : Invocation}
    (depth : Nat) {b : Builtin} (hold : replacements.lookup i.keyword = none)
    (hb : Builtin.ofName? i.keyword = some b) :
    runKeyword inv i depth m =
      (Act.ofExcept (validate i.keyword b.descriptors i.args) >>= fun _ => runBuiltin b i depth) m :=
  Machine.runKeyword_builtin inv depth (hm.find?_keyword i.keyword) hold hb

/-- A keyword of a plain machine is an old one, which only warns, or a built-in one. -/
theorem Plain.runKeyword_eq_ok {m k : Machine} (hm : m.Plain) {inv : Invoke} {i : Invocation}
    {depth : Nat} {step : Next} (h : runKeyword inv i depth m = (.ok step, k)) :
    (∃ instead e, replacements.lookup i.keyword = some instead ∧ step = .following ∧ k = m.emit e) ∨
      (replacements.lookup i.keyword = none ∧ ∃ b, Builtin.ofName? i.keyword = some b ∧
        validate i.keyword b.descriptors i.args = .ok () ∧
        runBuiltin b i depth m = (.ok step, k)) := by
  cases hold : replacements.lookup i.keyword with
  | some instead =>
    rw [runKeyword, hold] at h
    obtain ⟨_, s, hwarn, hlast⟩ := bind_eq_ok h
    obtain ⟨e, rfl⟩ := warn_eq_ok hwarn
    cases hlast
    exact Or.inl ⟨instead, e, rfl, rfl, rfl⟩
  | none =>
    cases hb : Builtin.ofName? i.keyword with
    | none =>
      rw [runKeyword, hold] at h
      dsimp only at h
      rw [get_bind_apply, hm.find?_keyword, hb] at h
      cases h
    | some b =>
      rw [hm.runKeyword_builtin inv depth hold hb] at h
      obtain ⟨_, s, hvalid, hrun⟩ := bind_eq_ok h
      obtain ⟨hvalid', rfl⟩ := ofExcept_eq_ok hvalid
      exact Or.inr ⟨rfl, b, rfl, hvalid', hrun⟩

/-- The statement as its keyword gets it. -/
def invocation (m : Machine) (s : Statement) : Invocation :=
  ⟨s.keyword.text, s.labels, s.args, m.cursor⟩

/-- A statement with a keyword that its labels may stand before runs the keyword and leaves its context. -/
theorem dispatch_apply (inv : Invoke) {s : Statement} (depth : Nat) {m : Machine}
    (hword : s.keyword.isWord = true)
    (hlabels : checkLabels m.registry s.keyword.text s.labels = .ok ()) :
    dispatch inv s depth m =
      (runKeyword inv (m.invocation s) depth >>= fun next =>
        (modify (leaveContext s.keyword.text depth) >>= fun _ => pure next)) m := by
  unfold dispatch
  dsimp only
  rw [hword, Bool.not_true, if_neg Bool.false_ne_true, get_bind_apply, hlabels]
  rfl

/-- A statement that succeeds has run its keyword and left its context. -/
theorem dispatch_eq_ok {inv : Invoke} {s : Statement} {depth : Nat} {m k : Machine} {step : Next}
    (h : dispatch inv s depth m = (.ok step, k)) :
    ∃ k', runKeyword inv (m.invocation s) depth m = (.ok step, k') ∧
      k = k'.leaveContext s.keyword.text depth := by
  have hword : s.keyword.isWord = true := by
    by_contra hnot
    rw [Bool.not_eq_true] at hnot
    unfold dispatch at h
    dsimp only at h
    rw [hnot] at h
    cases h
  have hlabels : checkLabels m.registry s.keyword.text s.labels = .ok () := by
    unfold dispatch at h
    dsimp only at h
    rw [hword, Bool.not_true, if_neg Bool.false_ne_true, get_bind_apply] at h
    obtain ⟨_, _, hchecked, -⟩ := bind_eq_ok h
    exact (ofExcept_eq_ok hchecked).1
  rw [dispatch_apply inv depth hword hlabels] at h
  obtain ⟨step', k', hrun, hlast⟩ := bind_eq_ok h
  rw [modify_bind_apply, pure_apply] at hlast
  cases hlast
  exact ⟨k', hrun, rfl⟩

/-- Go on behind a keyword, with the code nested in its statement if it asks for that. -/
def follow (inv : Invoke) (bound : Nat) (args : List Token) (depth : Nat) : Next → Act (Option Nat)
  | .following => pure none
  | .line n => pure (some n)
  | .nested skip => runNested inv bound (args.drop skip) (depth + 1)

/-- A row of tokens is ignored, or it is a statement with its nested code. -/
theorem runNested_cons (inv : Invoke) (bound : Nat) (first : Token) (rest : List Token) (depth : Nat)
    (m : Machine) :
    runNested inv (bound + 1) (first :: rest) depth m =
      if m.isIgnored first then (.ok none, m.openContext depth)
      else (dispatch inv (Statement.ofTokens m.registry.isLabel first rest) depth >>=
        follow inv bound (Statement.ofTokens m.registry.isLabel first rest).args depth)
          (m.openContext depth) := by
  have hopen : (m.openContext depth).isIgnored first = m.isIgnored first ∧
      (m.openContext depth).registry = m.registry := by
    unfold openContext
    split_ifs <;> exact ⟨rfl, rfl⟩
  rw [runNested, modify_bind_apply, get_bind_apply, hopen.1]
  split_ifs with hignored
  · rfl
  · rw [get_bind_apply, hopen.2, bind_apply, bind_apply]
    rcases dispatch inv (Statement.ofTokens m.registry.isLabel first rest) depth
      (m.openContext depth) with ⟨f | step, k⟩
    · rfl
    · cases step <;> rfl

/-- Opening a level changes nothing but contexts, and a level that follows the open ones is then there. -/
theorem openContext_eq_withContexts (m : Machine) (depth : Nat) :
    ∃ cs, m.openContext depth = m.withContexts cs ∧ (depth ≤ m.contexts.length → depth < cs.length) := by
  unfold openContext
  split_ifs with hlevel
  · refine ⟨m.contexts ++ [({} : Context)], rfl, fun h => ?_⟩
    rw [List.length_append, List.length_singleton]
    omega
  · exact ⟨m.contexts, rfl, fun _ => Nat.lt_of_not_le hlevel⟩

theorem Plain.openContext {m : Machine} (hm : m.Plain) (depth : Nat) : (m.openContext depth).Plain :=
  (congruence_plain.openContext depth ⟨rfl, hm⟩).2

theorem Plain.dispatch {m k : Machine} (hm : m.Plain) {inv : Invoke} {s : Statement} {depth : Nat}
    {step : Next} (h : Machine.dispatch inv s depth m = (.ok step, k)) : k.Plain := by
  have hkept := (congruence_plain.agree_dispatch (Plain.agree_invoke inv inv) s depth m m ⟨rfl, hm⟩).2.2
  rwa [h] at hkept

/-- Opening an inner level leaves the outermost context alone. -/
theorem Plain.head?_openContext {m : Machine} (hm : m.Plain) (depth : Nat) :
    (m.openContext depth).contexts.head? = m.contexts.head? := by
  unfold Machine.openContext
  split_ifs
  · show (m.contexts ++ [({} : Context)]).head? = m.contexts.head?
    rw [List.head?_append, hm.head?]
    rfl
  · rfl

/-- Leaving an inner level leaves the outermost context alone. -/
theorem head?_leaveContext_succ (keyword : String) (depth : Nat) (m : Machine) :
    (m.leaveContext keyword (depth + 1)).contexts.head? = m.contexts.head? := by
  unfold leaveContext
  split_ifs
  · rfl
  · exact head?_modify_succ m.contexts depth _

@[simp] theorem leaveContext_symbols (keyword : String) (depth : Nat) (m : Machine) :
    (m.leaveContext keyword depth).symbols = m.symbols := by
  unfold leaveContext
  split_ifs <;> rfl

/-- A statement on an inner level leaves the outermost context alone, or it resets the machine. -/
theorem Plain.dispatch_head? {m k : Machine} (hm : m.Plain) {inv : Invoke} {s : Statement}
    {depth : Nat} {step : Next} (h : Machine.dispatch inv s (depth + 1) m = (.ok step, k)) :
    k.contexts.head? = m.contexts.head? ∨
      (step = .line 0 ∧ k.symbols.calls = [] ∧ k.contexts.head? = some {}) := by
  obtain ⟨k', hrun, rfl⟩ := dispatch_eq_ok h
  rw [head?_leaveContext_succ, leaveContext_symbols]
  rcases hm.runKeyword_eq_ok hrun with ⟨_, e, -, -, rfl⟩ | ⟨-, b, -, -, hb⟩
  · exact Or.inl rfl
  · exact runBuiltin_head? hb

/-- **Nested code leaves the outermost context alone, or it resets the machine**: by induction on the bound of
the nesting. -/
theorem Plain.runNested_head? {inv : Invoke} (bound : Nat) {tokens : List Token} {depth : Nat}
    {m m' : Machine} {next : Option Nat} (hm : m.Plain)
    (h : runNested inv bound tokens (depth + 1) m = (.ok next, m')) :
    m'.contexts.head? = m.contexts.head? ∨
      (next = some 0 ∧ m'.symbols.calls = [] ∧ m'.contexts.head? = some {}) := by
  induction bound generalizing tokens depth m with
  | zero =>
    cases h
    exact Or.inl rfl
  | succ bound ih =>
    cases tokens with
    | nil =>
      cases h
      exact Or.inl rfl
    | cons first rest =>
      -- A keyword that resets the machine goes to line 0, so no nested code is run behind it.
      have hopen := hm.head?_openContext (depth + 1)
      rw [runNested_cons] at h
      split_ifs at h with hignored
      · cases h
        exact Or.inl hopen
      · obtain ⟨step, k, hrun, hgoes⟩ := bind_eq_ok h
        have hkeeps := (hm.openContext (depth + 1)).dispatch_head? hrun
        rw [hopen] at hkeeps
        cases step with
        | following =>
          cases hgoes
          rcases hkeeps with hsame | ⟨hreset, -⟩
          · exact Or.inl hsame
          · cases hreset
        | line n =>
          cases hgoes
          rcases hkeeps with hsame | ⟨hreset, hrest⟩
          · exact Or.inl hsame
          · cases hreset
            exact Or.inr ⟨rfl, hrest⟩
        | nested skip =>
          rcases hkeeps with hsame | ⟨hreset, -⟩
          · rw [← hsame]
            exact ih ((hm.openContext (depth + 1)).dispatch hrun) hgoes
          · cases hreset

/-! ## Lines -/

/-- The statement that a line has now, references in it being looked up: none when it has no element or is
to be ignored, or when it cannot be cut. -/
def statement? (m : Machine) (line : String) : Option Statement :=
  match tokenize m.registry.types (some (resolver m.symbols m.objects)) line with
  | .ok (first :: rest) =>
    if m.isIgnored first then none else some (Statement.ofTokens m.registry.isLabel first rest)
  | _ => none

/-- The end of a line: only the outermost context is left. -/
def closeLine (m : Machine) : Machine := m.withContexts (m.contexts.take 1)

@[simp] theorem closeLine_level (m : Machine) : m.closeLine.level = m.level := by
  apply level_of_head?
  show (m.contexts.take 1).head? = m.contexts.head?
  rw [List.head?_take, if_neg Nat.one_ne_zero]

/-- **A line with a statement runs it on the outermost level**, with the code nested in it, and the bound of the
nesting is large enough for all of its arguments. -/
theorem Plain.runLine_of_statement_bounded {m : Machine} (hm : m.Plain) (inv : Invoke) {line : String}
    {s : Statement} (hs : m.statement? line = some s) :
    ∃ bound, s.args.length ≤ bound ∧ runLine inv line m =
      ((Machine.dispatch inv s 0 >>= follow inv bound s.args 0).finally closeLine) m := by
  have hopen : m.openContext 0 = m := if_neg (by simpa using hm.nonempty)
  unfold statement? at hs
  split at hs
  · rename_i first rest htokens
    split_ifs at hs with hignored
    cases hs
    refine ⟨rest.length, Statement.length_args_le _ first rest, ?_⟩
    rw [runLine, get_bind_apply, bind_of_ok (show Act.ofExcept _ m = (.ok (first :: rest), m) by
      rw [htokens, ofExcept_apply])]
    rw [runStatement, List.length_cons, finally_apply, finally_apply, runNested_cons, if_neg hignored,
      hopen]
    rfl
  · cases hs

theorem Plain.runLine_of_statement {m : Machine} (hm : m.Plain) (inv : Invoke) {line : String}
    {s : Statement} (hs : m.statement? line = some s) :
    ∃ bound, runLine inv line m =
      ((Machine.dispatch inv s 0 >>= follow inv bound s.args 0).finally closeLine) m := by
  obtain ⟨bound, -, happly⟩ := hm.runLine_of_statement_bounded inv hs
  exact ⟨bound, happly⟩

/-- A line without statement that succeeds does nothing. -/
theorem Plain.runLine_of_none {m m' : Machine} (hm : m.Plain) {inv : Invoke} {line : String}
    {next : Option Nat} (hs : m.statement? line = none)
    (h : runLine inv line m = (.ok next, m')) : next = none ∧ m' = m.closeLine := by
  have hopen : m.openContext 0 = m := if_neg (by simpa using hm.nonempty)
  rw [runLine, get_bind_apply] at h
  obtain ⟨tokens, _, hcut, hrun⟩ := bind_eq_ok h
  obtain ⟨htokens, rfl⟩ := ofExcept_eq_ok hcut
  rw [statement?, htokens] at hs
  cases tokens with
  | nil =>
    cases hrun
    exact ⟨rfl, rfl⟩
  | cons first rest =>
    dsimp only at hs
    split_ifs at hs with hignored
    rw [runStatement, List.length_cons, finally_apply, runNested_cons, if_pos hignored, hopen] at hrun
    cases hrun
    exact ⟨rfl, rfl⟩

/-- Behind its keyword a line leaves the outermost context alone, or it resets the machine. -/
theorem Plain.follow_level {k inner : Machine} (hk : k.Plain) {inv : Invoke} {bound : Nat}
    {args : List Token} {step : Next} {next : Option Nat}
    (h : follow inv bound args 0 step k = (.ok next, inner)) :
    inner.level = k.level ∨ (next = some 0 ∧ inner.symbols.calls = [] ∧ inner.level = {}) := by
  cases step with
  | following =>
    cases h
    exact Or.inl rfl
  | line n =>
    cases h
    exact Or.inl rfl
  | nested skip =>
    rcases hk.runNested_head? bound h with hsame | ⟨hnext, hcalls, hfresh⟩
    · exact Or.inl (level_of_head? hsame)
    · refine Or.inr ⟨hnext, hcalls, ?_⟩
      rw [level, List.headD_eq_head?_getD, hfresh]
      rfl

/-! ## What keywords leave -/

theorem Plain.runKeyword {m k : Machine} (hm : m.Plain) {inv : Invoke} {i : Invocation} {depth : Nat}
    {step : Next} (h : Machine.runKeyword inv i depth m = (.ok step, k)) : k.Plain := by
  have hkept := (congruence_plain.agree_runKeyword (Plain.agree_invoke inv inv) i depth m m ⟨rfl, hm⟩).2.2
  rwa [h] at hkept

/-- A keyword that does not belong to the statement before is remembered. -/
theorem leaveContext_level {keyword : String} {k : Machine} (hk : k.contexts ≠ [])
    (h : transparent.contains keyword = false) :
    (k.leaveContext keyword 0).level =
      { k.level with canElse := keyword == "if", lastKeyword := some keyword } := by
  rw [leaveContext, h, if_neg Bool.false_ne_true, level_modify_zero hk]

theorem leaveContext_of_transparent {keyword : String} (k : Machine)
    (h : transparent.contains keyword = true) : k.leaveContext keyword 0 = k := by
  rw [leaveContext, if_pos h]

/-- A statement with a built-in keyword that succeeds has run it and left its context. -/
theorem Plain.dispatch_builtin_eq_ok {m k : Machine} (hm : m.Plain) {inv : Invoke} {s : Statement}
    {depth : Nat} {step : Next} {b : Builtin} (hold : replacements.lookup s.keyword.text = none)
    (hb : Builtin.ofName? s.keyword.text = some b)
    (h : Machine.dispatch inv s depth m = (.ok step, k)) :
    ∃ k', runBuiltin b (m.invocation s) depth m = (.ok step, k') ∧ k'.Plain ∧
      k = k'.leaveContext s.keyword.text depth := by
  obtain ⟨k', hrun, rfl⟩ := dispatch_eq_ok h
  rcases hm.runKeyword_eq_ok hrun with ⟨instead, e, hsome, -, -⟩ | ⟨-, b', hb', -, hbuiltin⟩
  · cases hold.symm.trans hsome
  · cases hb.symm.trans hb'
    exact ⟨k', hbuiltin, hm.runKeyword hrun, rfl⟩

/-- A condition leaves its truth, and that the statement was an `if`. -/
theorem Plain.dispatch_if {m k : Machine} (hm : m.Plain) {inv : Invoke} {s : Statement} {step : Next}
    (hif : s.keyword.text = "if") (h : Machine.dispatch inv s 0 m = (.ok step, k)) :
    ∃ satisfied, k.level = ⟨some "if", satisfied, true⟩ ∧ k.symbols = m.symbols ∧
      (satisfied = false → step = .following) := by
  obtain ⟨k', hrun, hk', rfl⟩ :=
    hm.dispatch_builtin_eq_ok (b := .condition) (by rw [hif]; rfl) (by rw [hif]; rfl) h
  obtain ⟨satisfied, -, rfl, rfl⟩ := runCondition_eq_ok hrun
  refine ⟨satisfied, ?_, by rw [leaveContext_symbols]; rfl, by rintro rfl; rfl⟩
  rw [hif, leaveContext_level hk'.nonempty rfl, level_modify_zero hm.nonempty]
  rfl

/-- What continues an `if` leaves the truth of the chain so far. -/
theorem Plain.dispatch_continuation {m k : Machine} (hm : m.Plain) {inv : Invoke} {s : Statement}
    {step : Next} (hbar : s.keyword.text = "|") (hif : m.level.lastKeyword = some "if")
    (h : Machine.dispatch inv s 0 m = (.ok step, k)) :
    ∃ satisfied, k.level = ⟨some "if", satisfied, true⟩ ∧ k.symbols = m.symbols ∧
      (satisfied = false → step = .following) := by
  obtain ⟨k', hrun, -, rfl⟩ :=
    hm.dispatch_builtin_eq_ok (b := .continuation) (by rw [hbar]; rfl) (by rw [hbar]; rfl) h
  have helse : m.level.canElse = true := hm.level_coherent.mpr hif
  have hlevel : m.level = ⟨some "if", m.level.satisfied, true⟩ := by rw [← hif, ← helse]
  rw [hbar, leaveContext_of_transparent k' rfl]
  rcases runContinuation_if hm.getElem?_zero hif hrun with ⟨hsat, rfl, rfl⟩ | ⟨-, hcondition⟩
  · exact ⟨true, hlevel.trans (by rw [hsat]), rfl, fun _ => rfl⟩
  · obtain ⟨satisfied, -, rfl, rfl⟩ := runCondition_eq_ok hcondition
    refine ⟨satisfied, ?_, rfl, by rintro rfl; rfl⟩
    rw [level_modify_zero hm.nonempty, hlevel]

/-- What continues another statement leaves the outermost context alone. -/
theorem Plain.dispatch_continuation_other {m k : Machine} (hm : m.Plain) {inv : Invoke} {s : Statement}
    {step : Next} (hbar : s.keyword.text = "|") (hif : m.level.lastKeyword ≠ some "if")
    (h : Machine.dispatch inv s 0 m = (.ok step, k)) : k.level = m.level := by
  obtain ⟨k', hrun, -, rfl⟩ :=
    hm.dispatch_builtin_eq_ok (b := .continuation) (by rw [hbar]; rfl) (by rw [hbar]; rfl) h
  rw [hbar, leaveContext_of_transparent k' rfl]
  have hsame := runContinuation_other hm.getElem?_zero hif hrun
  rw [level, level, hsame]

/-- A property line belongs to an object, whose context it leaves alone. -/
theorem Plain.dispatch_property {m k : Machine} (hm : m.Plain) {inv : Invoke} {s : Statement}
    {step : Next} (hmark : s.keyword.text = "#") (h : Machine.dispatch inv s 0 m = (.ok step, k)) :
    k.level = m.level ∧ m.level.lastKeyword = some "object" := by
  obtain ⟨k', hrun, -, rfl⟩ :=
    hm.dispatch_builtin_eq_ok (b := .property) (by rw [hmark]; rfl) (by rw [hmark]; rfl) h
  rw [hmark, leaveContext_of_transparent k' rfl]
  have hsame := runQuiet_contexts (b := .property) rfl (m.invocation s) 0 m
  rw [hrun] at hsame
  exact ⟨by rw [level, level, hsame], runProperty_eq_ok hm.getElem?_zero hrun⟩

/-- Every other keyword is remembered, and no `else` is allowed behind it. -/
theorem Plain.dispatch_other {m k : Machine} (hm : m.Plain) {inv : Invoke} {s : Statement}
    {step : Next} (hkeyword : transparent.contains s.keyword.text = false)
    (h : Machine.dispatch inv s 0 m = (.ok step, k)) :
    k.level.lastKeyword = some s.keyword.text ∧ k.level.canElse = (s.keyword.text == "if") := by
  obtain ⟨k', hrun, rfl⟩ := dispatch_eq_ok h
  rw [leaveContext_level (hm.runKeyword hrun).nonempty hkeyword]
  exact ⟨rfl, rfl⟩

/-- Does a statement belong to the conditions of a chain? -/
def ContinuesIf (m : Machine) (s : Statement) : Prop :=
  s.keyword.text = "if" ∨ (s.keyword.text = "|" ∧ m.level.lastKeyword = some "if")

/-- **A statement of a chain of conditions leaves the context of an `if`, and no other statement does.** -/
theorem Plain.dispatch_level {m k : Machine} (hm : m.Plain) {inv : Invoke} {s : Statement}
    {step : Next} (h : Machine.dispatch inv s 0 m = (.ok step, k)) :
    (m.ContinuesIf s → ∃ satisfied, k.level = ⟨some "if", satisfied, true⟩ ∧
      k.symbols = m.symbols ∧ (satisfied = false → step = .following)) ∧
    (¬ m.ContinuesIf s → k.level.lastKeyword ≠ some "if") := by
  constructor
  · rintro (hif | ⟨hbar, hif⟩)
    · exact hm.dispatch_if hif h
    · exact hm.dispatch_continuation hbar hif h
  · intro hnot
    -- The two marks keep the context, which is not that of an `if`; any other keyword replaces it.
    have hnif : s.keyword.text ≠ "if" := fun hif => hnot (Or.inl hif)
    by_cases hbar : s.keyword.text = "|"
    · have hother : m.level.lastKeyword ≠ some "if" := fun hif => hnot (Or.inr ⟨hbar, hif⟩)
      rw [hm.dispatch_continuation_other hbar hother h]
      exact hother
    · by_cases hmark : s.keyword.text = "#"
      · obtain ⟨hsame, hobject⟩ := hm.dispatch_property hmark h
        rw [hsame, hobject]
        simp
      · have hplain : transparent.contains s.keyword.text = false := by
          simp [transparent, hbar, hmark]
        rw [(hm.dispatch_other hplain h).1]
        simpa using hnif

end Machine

end LineScript
