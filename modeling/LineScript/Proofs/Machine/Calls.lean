/-
# Conditions and calls

A condition may call a function.  The body then runs line by line on the same outermost context as the caller,
and what the caller sees when control comes back is what the returning line has left there.

Main statement: the context is the one that the calling line left exactly when the line that returns belongs to
a chain of conditions itself (`level_after_return`).  Behind an `end` that stands for itself neither `else` nor
`|` can follow, although the calling line was an `if`.
-/
import LineScript.Proofs.Machine.Context

namespace LineScript

open Act

namespace Machine

/-! ## Lines that succeed -/

/-- The statement of the line under the cursor. -/
def cursorStatement? (m : Machine) : Option Statement :=
  (m.script.lines[m.cursor]?).bind m.statement?

/-- The line under the cursor is a statement, and the next move runs it without fault. -/
def Runs (m m' : Machine) : Prop :=
  m.mode = .running ∧ (∃ line, m.script.lines[m.cursor]? = some line ∧ m.counts line = true) ∧
    m.advance = some ⟨[m.cursor], [], m'⟩

/-- The machine while the line under the cursor runs. -/
def onLine (m : Machine) : Machine := { m with executing := some m.cursor }

theorem Plain.onLine {m : Machine} (hm : m.Plain) : m.onLine.Plain :=
  ⟨hm.keywords, hm.coherent, hm.nonempty⟩

/-- Running the line under the cursor. -/
theorem runCursorLine_apply (inv : Invoke) {m : Machine} {line : String}
    (hline : m.script.lines[m.cursor]? = some line) :
    runCursorLine inv m =
      (runLine inv line >>= fun next => modify ({ · with cursor := next.getD (m.cursor + 1) }))
        m.onLine := by
  rw [runCursorLine, get_bind_apply, hline]
  rfl

/-- A statement under the cursor that succeeds is run by one move. -/
theorem advance_of_runLine {m k : Machine} {line : String} {next : Option Nat} (hmode : m.mode = .running)
    (hline : m.script.lines[m.cursor]? = some line) (hcounts : m.counts line = true)
    (hrun : runLine (invoke m.nesting) line m.onLine = (.ok next, k)) :
    m.advance = some ⟨[m.cursor], [], { k with cursor := next.getD (m.cursor + 1) }⟩ := by
  have hcursor : runCursorLine (invoke m.nesting) m = (.ok (), { k with cursor := next.getD (m.cursor + 1) }) := by
    rw [runCursorLine_apply _ hline, bind_of_ok hrun]
    rfl
  rw [advance_statement hmode hline hcounts, guarded_apply, hcursor]
  rfl

theorem Runs.runLine {m m' : Machine} (h : m.Runs m') :
    ∃ line next k, m.script.lines[m.cursor]? = some line ∧
      Machine.runLine (invoke m.nesting) line m.onLine = (.ok next, k) ∧
      m' = { k with cursor := next.getD (m.cursor + 1) } := by
  obtain ⟨hmode, ⟨line, hline, hcounts⟩, hmove⟩ := h
  rw [advance_statement hmode hline hcounts, guarded_apply, runCursorLine_apply _ hline] at hmove
  rw [bind_apply] at hmove
  rcases hrun : Machine.runLine (invoke m.nesting) line m.onLine with ⟨f | next, k⟩
  · rw [hrun] at hmove
    cases hmove
  · rw [hrun] at hmove
    cases hmove
    exact ⟨line, next, k, hline, hrun, rfl⟩

/-- **What a line that calls or returns leaves**: it has a statement, and the context is that of an `if` whose
condition has held exactly when the statement belongs to a chain of conditions. -/
theorem Plain.runs_level {m m' : Machine} (hm : m.Plain) (h : m.Runs m')
    (hcalls : m'.symbols.calls ≠ m.symbols.calls)
    (hreset : ¬ (m'.cursor = 0 ∧ m'.symbols.calls = [])) :
    ∃ s, m.cursorStatement? = some s ∧
      (m.ContinuesIf s → m'.level = ⟨some "if", true, true⟩) ∧
      (¬ m.ContinuesIf s → m'.level.lastKeyword ≠ some "if") ∧
      (transparent.contains s.keyword.text = false →
        m'.level.lastKeyword = some s.keyword.text ∧ m'.level.canElse = (s.keyword.text == "if")) := by
  obtain ⟨line, next, k, hline, hrun, rfl⟩ := h.runLine
  have hcursor : m.cursorStatement? = m.onLine.statement? line := by
    rw [cursorStatement?, hline]
    rfl
  rw [hcursor]
  cases hs : m.onLine.statement? line with
  | none =>
    obtain ⟨-, rfl⟩ := hm.onLine.runLine_of_none hs hrun
    exact absurd rfl hcalls
  | some s =>
    obtain ⟨bound, happly⟩ := hm.onLine.runLine_of_statement (invoke m.nesting) hs
    rw [happly, finally_apply] at hrun
    rcases hboth : (Machine.dispatch (invoke m.nesting) s 0 >>=
      follow (invoke m.nesting) bound s.args 0) m.onLine with ⟨answer, inner⟩
    rw [hboth] at hrun
    cases hrun
    obtain ⟨step, k', hdispatch, hfollow⟩ := bind_eq_ok hboth
    -- What the nested code does to the calls it does behind the keyword, on inner levels.
    have hlevel : inner.level = k'.level := by
      rcases (hm.onLine.dispatch hdispatch).follow_level hfollow with hsame | ⟨rfl, hnone, -⟩
      · exact hsame
      · exact absurd ⟨rfl, hnone⟩ hreset
    have hlast : ({ inner.closeLine with cursor := next.getD (m.cursor + 1) } : Machine).level =
        k'.level := (closeLine_level inner).trans hlevel
    obtain ⟨hchain, hother⟩ := hm.onLine.dispatch_level hdispatch
    refine ⟨s, rfl, ?_, ?_, ?_⟩
    · intro hif
      obtain ⟨satisfied, hleft, hsymbols, hfalse⟩ := hchain hif
      -- Without a condition that holds no nested code would have run, and the calls would be the same.
      cases satisfied with
      | true => rw [hlast, hleft]
      | false =>
        rw [hfalse rfl] at hfollow
        cases hfollow
        exact absurd (congrArg Symbols.calls hsymbols) hcalls
    · intro hnot
      rw [hlast]
      exact hother hnot
    · intro hplain
      rw [hlast]
      exact hm.onLine.dispatch_other hplain hdispatch

/-! ## Alternatives -/

end Machine

/-- An `else` or a continuation, with some code. -/
structure Statement.IsAlternative (s : Statement) : Prop where
  word : s.keyword.isWord = true
  keyword : s.keyword.text = "else" ∨ s.keyword.text = "|"
  labels : s.labels = []
  args : s.args ≠ []

/-- Code may be anything. -/
theorem validate_code (keyword : String) {args : List Token} (h : args ≠ []) :
    validate keyword [(Descriptor.ofText "code" "any").makeRecurring] args = .ok () := by
  have hall : ∀ args : List Token,
      ((Descriptor.ofText "code" "any").makeRecurring).checkAll keyword args = .ok () := by
    intro args
    induction args with
    | nil => rfl
    | cons arg rest ih => exact ih
  cases args with
  | nil => exact absurd rfl h
  | cons arg rest => exact hall (arg :: rest)

namespace Machine

theorem runOtherwise_apply {depth : Nat} {m : Machine} {c : Context} (hc : m.contexts[depth]? = some c) :
    runOtherwise depth m =
      if c.canElse then (.ok (if c.satisfied then .following else .nested 0), m)
      else (.error .elseAlone, m) := by
  rw [runOtherwise, bind_of_ok (context_of_some hc)]
  cases c.canElse <;> rfl

/-- An alternative passes its checks, and its keyword decides. -/
theorem Plain.runKeyword_alternative {m : Machine} (hm : m.Plain) (inv : Invoke) {s : Statement}
    (hs : s.IsAlternative) :
    Machine.runKeyword inv (m.invocation s) 0 m =
      if s.keyword.text = "else" then runOtherwise 0 m else runContinuation (m.invocation s) 0 m := by
  have hrun : ∀ b : Builtin, Builtin.ofName? s.keyword.text = some b →
      replacements.lookup s.keyword.text = none →
      b.descriptors = [(Descriptor.ofText "code" "any").makeRecurring] →
      Machine.runKeyword inv (m.invocation s) 0 m = runBuiltin b (m.invocation s) 0 m := by
    intro b hb hold hdescriptors
    have hvalid : validate s.keyword.text b.descriptors s.args = .ok () := by
      rw [hdescriptors]
      exact validate_code _ hs.args
    rw [hm.runKeyword_builtin (i := m.invocation s) inv 0 hold hb]
    exact bind_of_ok (congrArg (·, m) hvalid)
  rcases hs.keyword with helse | hbar
  · rw [if_pos helse]
    rw [helse] at hrun
    exact hrun .otherwise rfl rfl rfl
  · rw [if_neg (by rw [hbar]; simp)]
    rw [hbar] at hrun
    exact hrun .continuation rfl rfl rfl

/-- Behind a condition that has held an alternative does nothing. -/
theorem Plain.dispatch_alternative_skipped {m : Machine} (hm : m.Plain) (inv : Invoke) {s : Statement}
    (hs : s.IsAlternative) (hlevel : m.level = ⟨some "if", true, true⟩) :
    Machine.dispatch inv s 0 m = (.ok .following, m.leaveContext s.keyword.text 0) := by
  have hcontext := hm.getElem?_zero
  have hkeyword : Machine.runKeyword inv (m.invocation s) 0 m = (.ok .following, m) := by
    rw [hm.runKeyword_alternative inv hs, runOtherwise_apply hcontext, runContinuation_apply hcontext,
      hlevel]
    split_ifs <;> simp_all
  rw [dispatch_apply inv 0 hs.word (by rw [hs.labels]; rfl), bind_of_ok hkeyword]
  rfl

/-- Behind an `end` an alternative is refused. -/
theorem Plain.dispatch_alternative_refused {m : Machine} (hm : m.Plain) (inv : Invoke) {s : Statement}
    (hs : s.IsAlternative) (hlast : m.level.lastKeyword = some "end") :
    Machine.dispatch inv s 0 m =
      (.error (if s.keyword.text = "else" then .elseAlone else .continuationAlone), m) := by
  have hcontext := hm.getElem?_zero
  have hnone : m.level.canElse = false := by
    by_contra hcan
    have hif := hm.level_coherent.mp (by simpa using hcan)
    rw [hlast] at hif
    simp at hif
  rw [dispatch_apply inv 0 hs.word (by rw [hs.labels]; rfl)]
  refine bind_of_error ?_
  rw [hm.runKeyword_alternative inv hs, runOtherwise_apply hcontext, runContinuation_apply hcontext,
    hlast, hnone]
  split_ifs <;> simp_all

/-- **Behind a condition that has held the line of an alternative is passed over**: but for the contexts only
the cursor moves. -/
theorem Plain.skips_alternative {m : Machine} (hm : m.Plain) (inv : Invoke) {s : Statement}
    (hcursor : m.cursorStatement? = some s) (hs : s.IsAlternative)
    (hlevel : m.level = ⟨some "if", true, true⟩) :
    ∃ cs, Machine.runCursorLine inv m =
      (.ok (), { m with executing := some m.cursor, contexts := cs, cursor := m.cursor + 1 }) := by
  obtain ⟨line, hline, hstatement⟩ := Option.bind_eq_some_iff.mp hcursor
  obtain ⟨bound, happly⟩ := hm.onLine.runLine_of_statement inv hstatement
  have hrun := hm.onLine.dispatch_alternative_skipped inv hs hlevel
  obtain ⟨cs, hcs⟩ : ∃ cs, m.onLine.leaveContext s.keyword.text 0 = m.onLine.withContexts cs := by
    unfold leaveContext changeContext
    split_ifs
    · exact ⟨m.contexts, rfl⟩
    · exact ⟨_, rfl⟩
  refine ⟨cs.take 1, ?_⟩
  rw [runCursorLine_apply inv hline, bind_apply, happly, finally_apply, bind_of_ok hrun, hcs]
  rfl

/-- **Behind an `end` the line of an alternative fails.** -/
theorem Plain.refuses_alternative {m : Machine} (hm : m.Plain) (inv : Invoke) {s : Statement}
    (hcursor : m.cursorStatement? = some s) (hs : s.IsAlternative)
    (hlast : m.level.lastKeyword = some "end") :
    (Machine.runCursorLine inv m).1 =
      .error (if s.keyword.text = "else" then .elseAlone else .continuationAlone) := by
  obtain ⟨line, hline, hstatement⟩ := Option.bind_eq_some_iff.mp hcursor
  obtain ⟨bound, happly⟩ := hm.onLine.runLine_of_statement inv hstatement
  have hrun := hm.onLine.dispatch_alternative_refused inv hs hlast
  rw [runCursorLine_apply inv hline, bind_apply, happly, finally_apply, bind_of_error hrun]

/-! ## Calls from conditions -/

/-- A script goes on without fault, its host giving it input on the way. -/
inductive Course (m : Machine) : Machine → Prop
  | here : Course m m
  | move {k : Machine} {t : Stretch} :
      Course m k → k.advance = some t → t.faults = [] → Course m t.last
  | pause {k : Machine} : Course m k → Course m k.pause
  | resume {k : Machine} : Course m k → Course m k.resume
  | deliverKey {k : Machine} (key : String) : Course m k → Course m (k.deliverKey key)
  | provide {k : Machine} (name : String) (value : Value) :
      Course m k → Course m (k.provide name value)
  | print {k : Machine} (message : String) : Course m k → Course m (k.print message)

theorem Course.reachable {m k : Machine} (h : m.Course k) (hm : m.Reachable) : k.Reachable := by
  induction h with
  | here => exact hm
  | move _ hmove _ ih => exact ih.move hmove
  | pause _ ih => exact ih.pause
  | resume _ ih => exact ih.resume
  | deliverKey key _ ih => exact ih.deliverKey key
  | provide name value _ ih => exact ih.provide name value
  | print message _ ih => exact ih.print message

theorem Runs.reachable {m m' : Machine} (h : m.Runs m') (hm : m.Reachable) : m'.Reachable :=
  hm.move h.2.2

/-- A call and its return: a line calls, the body goes on without fault, and some line of it returns to the
line behind the calling one.  The body may call and iterate, so the frame that is popped need not be the one
that was pushed. -/
structure CallAndReturn (m m₁ m' m₂ : Machine) : Prop where
  reachable : m.Reachable
  calls : m.Runs m₁
  pushed : ∃ frame, m₁.symbols.calls = frame :: m.symbols.calls
  body : m₁.Course m'
  inside : ∃ frame, m'.symbols.calls = frame :: m.symbols.calls
  returns : m'.Runs m₂
  popped : m₂.symbols.calls = m.symbols.calls
  behind : m₂.cursor = m.cursor + 1

/-- **The context behind a call from a condition.**  The calling line leaves the context of an `if` that has
held.  Control comes back to this context exactly when the line that returns belongs to a chain of conditions
itself; then an alternative that follows is passed over.  Behind an `end` that stands for itself the context
is that of the `end`, and an alternative that follows fails. -/
theorem level_after_return {m m₁ m' m₂ : Machine} (h : CallAndReturn m m₁ m' m₂) {s s' : Statement}
    (hs : m.cursorStatement? = some s) (hif : m.ContinuesIf s) (hs' : m'.cursorStatement? = some s') :
    m₁.level = ⟨some "if", true, true⟩ ∧
    (m₂.level = m₁.level ↔ m'.ContinuesIf s') ∧
    (m'.ContinuesIf s' → ∀ s₂, m₂.cursorStatement? = some s₂ → s₂.IsAlternative →
      ∃ cs, runCursorLine (invoke m₂.nesting) m₂ =
        (.ok (), { m₂ with executing := some m₂.cursor, contexts := cs, cursor := m₂.cursor + 1 })) ∧
    (s'.keyword.text = "end" →
      m₂.level.lastKeyword = some "end" ∧ m₂.level.canElse = false ∧
      ∀ s₂, m₂.cursorStatement? = some s₂ → s₂.IsAlternative →
        (runCursorLine (invoke m₂.nesting) m₂).1 =
          .error (if s₂.keyword.text = "else" then .elseAlone else .continuationAlone)) := by
  have hm' := h.body.reachable (h.calls.reachable h.reachable)
  have hm₂ := (h.returns.reachable hm').plain
  obtain ⟨frame, hpushed⟩ := h.pushed
  obtain ⟨frame', hinside⟩ := h.inside
  -- Both the calling and the returning line change the calls, so each has a statement and resets nothing.
  obtain ⟨t, ht, hcall, -, -⟩ := h.reachable.plain.runs_level h.calls
    (by rw [hpushed]; exact List.cons_ne_self _ _) (by rw [hpushed]; simp)
  obtain ⟨t', ht', hchain, hother, hown⟩ := hm'.plain.runs_level h.returns
    (by rw [hinside, h.popped]; exact (List.cons_ne_self _ _).symm) (by rw [h.behind]; omega)
  obtain rfl : s = t := Option.some.inj (hs.symm.trans ht)
  obtain rfl : s' = t' := Option.some.inj (hs'.symm.trans ht')
  have hlevel := hcall hif
  refine ⟨hlevel, ⟨?_, ?_⟩, ?_, ?_⟩
  · intro hsame
    by_contra hnot
    exact hother hnot (by rw [hsame, hlevel])
  · intro hagain
    rw [hchain hagain, hlevel]
  · intro hagain s₂ hs₂ halternative
    exact hm₂.skips_alternative _ hs₂ halternative (hchain hagain)
  · intro hend
    obtain ⟨hkeyword, helse⟩ := hown (by rw [hend]; rfl)
    rw [hend] at hkeyword helse
    exact ⟨hkeyword, helse, fun s₂ hs₂ halternative =>
      hm₂.refuses_alternative _ hs₂ halternative hkeyword⟩

/-! ## Two scripts -/

/-- What can be checked of a move: it fails, and `p` holds of it. -/
theorem exists_failing_move {m : Machine} {p : Stretch → Bool}
    (h : m.advance.any (fun t => t.faults.length == 1 && p t) = true) :
    ∃ t f, m.advance = some t ∧ t.faults = [f] ∧ p t = true := by
  obtain ⟨t, ht, hchecked⟩ := (Option.any_eq_true _ _).mp h
  rw [Bool.and_eq_true, beq_iff_eq] at hchecked
  obtain ⟨f, hf⟩ := List.length_eq_one_iff.mp hchecked.1
  exact ⟨t, f, ht, hf, hchecked.2⟩

theorem runs_stretch {m : Machine} (hmode : m.mode = .running)
    (hline : (m.script.lines[m.cursor]?).any m.counts = true)
    (hfaults : (m.stretch 1).faults.isEmpty = true) : m.Runs (m.stretch 1).last := by
  obtain ⟨line, hsome, hcounts⟩ := (Option.any_eq_true _ _).mp hline
  have hmove := advance_statement hmode hsome hcounts
  rw [stretch_one hmove] at hfaults ⊢
  refine ⟨hmode, ⟨line, hsome, hcounts⟩, ?_⟩
  rw [hmove]
  exact congrArg (fun fs => some (Stretch.mk [m.cursor] fs _)) (List.isEmpty_iff.mp hfaults)

theorem course_stretch {m k : Machine} (h : m.Course k) (n : Nat)
    (hfaults : (k.stretch n).faults.isEmpty = true) : m.Course (k.stretch n).last := by
  induction n generalizing k with
  | zero => exact h
  | succ n ih =>
    cases hmove : k.advance with
    | none =>
      rw [stretch_of_rest hmove]
      exact h
    | some t =>
      rw [stretch_succ hmove, List.isEmpty_iff, Stretch.andThen_faults,
        List.append_eq_nil_iff] at hfaults
      rw [stretch_succ hmove]
      exact ih (h.move hmove hfaults.1) (List.isEmpty_iff.mpr hfaults.2)

theorem exists_frame {calls : Calls} (h : calls.length = 1) : ∃ frame, calls = frame :: [] :=
  List.length_eq_one_iff.mp h

/-- A condition that calls a function with an ordinary body. -/
def plainReturn : Machine :=
  started "function f x:any\nlog hi\nend f\nif a = a execute f b\nelse log no"

/-- A condition that calls a function whose body returns under a condition of its own. -/
def nestedReturn : Machine :=
  started "function f x:any\nif a = a end f\nend f\nif a = a execute f b\nelse log no"

/-- What can be checked of a call and its return from the outermost level, whose body takes some moves. -/
def checksReturn (m : Machine) (moves : Nat) : Bool :=
  let m₁ := (m.stretch 1).last
  let m' := (m₁.stretch moves).last
  let m₂ := (m'.stretch 1).last
  m.mode = .running && (m.script.lines[m.cursor]?).any m.counts && (m.stretch 1).faults.isEmpty &&
  m.symbols.calls.length == 0 && m₁.symbols.calls.length == 1 && (m₁.stretch moves).faults.isEmpty &&
  m'.symbols.calls.length == 1 && m'.mode = .running && (m'.script.lines[m'.cursor]?).any m'.counts &&
  (m'.stretch 1).faults.isEmpty && m₂.symbols.calls.length == 0 && m₂.cursor == m.cursor + 1

theorem callAndReturn_of_checks {m : Machine} (hm : m.Reachable) {moves : Nat}
    (h : m.checksReturn moves = true) :
    CallAndReturn m (m.stretch 1).last ((m.stretch 1).last.stretch moves).last
      (((m.stretch 1).last.stretch moves).last.stretch 1).last := by
  simp only [checksReturn, Bool.and_eq_true, decide_eq_true_eq, beq_iff_eq] at h
  obtain ⟨⟨⟨⟨⟨⟨⟨⟨⟨⟨⟨hmode, hline⟩, hruns⟩, hnone⟩, hpushed⟩, hbody⟩, hinside⟩, hmode'⟩, hline'⟩, hruns'⟩,
    hpopped⟩, hbehind⟩ := h
  have hempty := List.eq_nil_of_length_eq_zero hnone
  exact {
    reachable := hm
    calls := runs_stretch hmode hline hruns
    pushed := by rw [hempty]; exact exists_frame hpushed
    body := course_stretch .here moves hbody
    inside := by rw [hempty]; exact exists_frame hinside
    returns := runs_stretch hmode' hline' hruns'
    popped := by rw [hempty]; exact List.eq_nil_of_length_eq_zero hpopped
    behind := hbehind }

/-- The context does not come back from an ordinary body, and the `else` of the condition fails. -/
theorem level_lost_behind_plain_return : ∃ m m₁ m' m₂ s, CallAndReturn m m₁ m' m₂ ∧
    m.cursorStatement? = some s ∧ s.keyword.text = "if" ∧ m₂.level ≠ m₁.level ∧
    ((m₂.cursorStatement?).map (·.keyword.text)) = some "else" ∧
    (m₂.stretch 1).faults.map Fault.message = ["'else' must directly follow an 'if'"] := by
  let m := (plainReturn.stretch 3).last
  let m₁ := (m.stretch 1).last
  let m' := (m₁.stretch 1).last
  let m₂ := (m'.stretch 1).last
  have hchecks : m.checksReturn 1 = true ∧ (m.cursorStatement?).map (·.keyword.text) = some "if" ∧
      m₂.level ≠ m₁.level ∧ (m₂.cursorStatement?).map (·.keyword.text) = some "else" ∧
      (m₂.stretch 1).faults.map Fault.message = ["'else' must directly follow an 'if'"] := by
    decide +kernel
  obtain ⟨hcall, hif, hlevel, helse, hfaults⟩ := hchecks
  obtain ⟨s, hs, hkeyword⟩ := Option.map_eq_some_iff.mp hif
  have hstart : plainReturn.Reachable := started_reachable _
  exact ⟨m, m₁, m', m₂, s, callAndReturn_of_checks (hstart.stretch 3) hcall, hs, hkeyword, hlevel, helse,
    hfaults⟩

/-- The context comes back from a return that is nested in a condition, and the `else` is passed over. -/
theorem level_after_nested_return : ∃ m m₁ m' m₂, CallAndReturn m m₁ m' m₂ ∧ m₂.level = m₁.level ∧
    ∃ cs, runCursorLine (invoke m₂.nesting) m₂ =
      (.ok (), { m₂ with executing := some m₂.cursor, contexts := cs, cursor := m₂.cursor + 1 }) := by
  let m := (nestedReturn.stretch 3).last
  let m₁ := (m.stretch 1).last
  let m' := (m₁.stretch 0).last
  let m₂ := (m'.stretch 1).last
  have hchecks : m.checksReturn 0 = true ∧ (m.cursorStatement?).map (·.keyword.text) = some "if" ∧
      (m'.cursorStatement?).map (·.keyword.text) = some "if" ∧
      (m₂.cursorStatement?).map (fun s => (s.keyword.text, s.keyword.isWord, s.labels, s.args.length)) =
        some ("else", true, [], 2) := by
    decide +kernel
  obtain ⟨hcall, hif, hagain, halternative⟩ := hchecks
  obtain ⟨s, hs, hkeyword⟩ := Option.map_eq_some_iff.mp hif
  obtain ⟨s', hs', hkeyword'⟩ := Option.map_eq_some_iff.mp hagain
  obtain ⟨s₂, hs₂, hparts⟩ := Option.map_eq_some_iff.mp halternative
  simp only [Prod.mk.injEq] at hparts
  obtain ⟨helse, hword, hlabels, hargs⟩ := hparts
  have hstart : nestedReturn.Reachable := started_reachable _
  have hcourse := callAndReturn_of_checks (hstart.stretch 3) hcall
  obtain ⟨-, hlevel, hskips, -⟩ := level_after_return hcourse hs (Or.inl hkeyword) hs'
  exact ⟨m, m₁, m', m₂, hcourse, hlevel.mpr (Or.inl hkeyword'),
    hskips (Or.inl hkeyword') s₂ hs₂ ⟨hword, Or.inl helse, hlabels, by rintro hnil; simp [hnil] at hargs⟩⟩

end Machine

end LineScript
