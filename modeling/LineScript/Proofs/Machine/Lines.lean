/-
# Control stays in the script

Seven keywords choose the line that a run goes on with, each by its own rule: a jump names it, a call and a round of an
iteration go to the body of a function, an `end` goes behind a call, a declaration goes behind a body that is known, and
a stop or a restart goes to the first line.  All of them stay in the script (`Machine.InScript`): the cursor stands on a
line or behind the last one, and so does everything that later says where to go on.

* `landing_runBuiltin`: where each keyword lands;
* `Plain.lands_runLine`: where a line lands, its nested code included;
* `InScript.advance`: what a move of a run keeps, and `InScript.call` what a call of the host does.

Main statement: control stays in the script as long as the host runs no line of its own (`control_stays_in_script`).
-/
import LineScript.Proofs.Machine.Rows
import LineScript.Proofs.Machine.Hosting
import LineScript.Proofs.Symbols.Lines

namespace LineScript

open Act

namespace Machine

/-! ## Lines of a machine -/

/-- All lines that a machine keeps are lines of its script, and the cursor may stand behind the last one. -/
structure InScript (m : Machine) : Prop where
  cursor : m.cursor ≤ m.script.lines.size
  symbols : m.symbols.InScript m.script.lines.size
  opened : m.symbols.OpenedBefore m.cursor

/-- The lines that a machine keeps are what they were. -/
structure SameLines (m k : Machine) : Prop where
  script : k.script = m.script
  cursor : k.cursor = m.cursor
  functions : k.symbols.functions = m.symbols.functions
  calls : k.symbols.calls = m.symbols.calls
  declaring : k.symbols.declaring = m.symbols.declaring

theorem SameLines.refl (m : Machine) : m.SameLines m := by
  constructor <;> rfl

theorem SameLines.trans {m k l : Machine} (h : m.SameLines k) (h' : k.SameLines l) : m.SameLines l where
  script := h'.script.trans h.script
  cursor := h'.cursor.trans h.cursor
  functions := h'.functions.trans h.functions
  calls := h'.calls.trans h.calls
  declaring := h'.declaring.trans h.declaring

instance overlookingStores_sameLines : OverlookingStores SameLines where
  refl := SameLines.refl
  trans := SameLines.trans
  emit m e := by constructor <;> rfl
  contexts m cs := by constructor <;> rfl
  table m isGlobal t := by cases isGlobal <;> constructor <;> rfl
  objects m o := by constructor <;> rfl
  print m message := by constructor <;> rfl
  opened m className id := by constructor <;> rfl

theorem sameLines_mode (m : Machine) (mode : Mode) : m.SameLines { m with mode := mode } := by
  constructor <;> rfl

theorem sameLines_withContexts (m : Machine) (cs : List Context) : m.SameLines (m.withContexts cs) := by
  constructor <;> rfl

theorem sameLines_openContext (m : Machine) (depth : Nat) : m.SameLines (m.openContext depth) := by
  obtain ⟨cs, hopen, -⟩ := m.openContext_eq_withContexts depth
  rw [hopen]
  exact m.sameLines_withContexts cs

theorem sameLines_leaveContext (m : Machine) (keyword : String) (depth : Nat) :
    m.SameLines (m.leaveContext keyword depth) := by
  unfold leaveContext
  split_ifs
  · exact .refl m
  · exact m.sameLines_withContexts _

theorem sameLines_fail (f : Fault) (m : Machine) : m.SameLines (m.fail f) := by
  obtain ⟨events, hfail⟩ := fail_eq f m
  rw [hfail]
  constructor <;> rfl

theorem InScript.of_sameLines {m k : Machine} (hm : m.InScript) (h : m.SameLines k) : k.InScript where
  cursor := by
    rw [h.cursor, h.script]
    exact hm.cursor
  symbols := by
    rw [h.script]
    exact hm.symbols.of_same h.functions h.calls
  opened := by
    rw [h.cursor]
    exact hm.opened.of_same h.functions h.declaring

/-! ## Where a statement lands -/

/-- A machine that is about to run the statement under its cursor. -/
structure AtStatement (m : Machine) : Prop where
  inScript : m.InScript
  inside : m.cursor < m.script.lines.size
  free : m.symbols.declaring = none

/-- A statement of `m` has led to `k` and goes on with the line `next`, or with the one behind it: inside of the
script. -/
structure Lands (m : Machine) (next : Option Nat) (k : Machine) : Prop where
  script : k.script = m.script
  inScript : InScript { k with cursor := next.getD (m.cursor + 1) }

theorem AtStatement.of_sameLines {m k : Machine} (hm : m.AtStatement) (h : m.SameLines k) : k.AtStatement where
  inScript := hm.inScript.of_sameLines h
  inside := by
    rw [h.cursor, h.script]
    exact hm.inside
  free := h.declaring.trans hm.free

/-- What happens behind the choice of the line does not matter. -/
theorem Lands.trans {m k l : Machine} {next : Option Nat} (h : m.Lands next k) (hl : k.SameLines l) :
    m.Lands next l where
  script := hl.script.trans h.script
  inScript := h.inScript.of_sameLines ⟨hl.script, rfl, hl.functions, hl.calls, hl.declaring⟩

/-- What happens before the choice of the line does not matter either. -/
theorem SameLines.lands {m k l : Machine} {next : Option Nat} (h : m.SameLines k) (hl : k.Lands next l) :
    m.Lands next l := by
  obtain ⟨hscript, hlands⟩ := hl
  rw [h.cursor] at hlands
  exact ⟨hscript.trans h.script, hlands⟩

/-- A statement that chooses no line lands on the next one. -/
theorem AtStatement.lands_next {m k : Machine} (hm : m.AtStatement) (h : m.SameLines k) : m.Lands none k := by
  have hplace : m.InScript := hm.inScript
  refine ⟨h.script, ?_, ?_, ?_⟩
  · rw [h.script]
    exact hm.inside
  · rw [h.script]
    exact hplace.symbols.of_same h.functions h.calls
  · exact .of_declaring (h.declaring.trans hm.free) _

/-- A statement that changes the names lands on the line that it chooses. -/
theorem AtStatement.lands_line {m : Machine} (hm : m.AtStatement) {s : Symbols} {n : Nat}
    (hs : s.InScript m.script.lines.size) (hfree : s.declaring = m.symbols.declaring) (hn : n ≤ m.script.lines.size) :
    m.Lands (some n) { m with symbols := s } :=
  ⟨rfl, hn, hs, .of_declaring (hfree.trans hm.free) n⟩

/-- A keyword that lands inside of the script, or fails and leaves all lines as they were. -/
def Landing (a : Act Next) : Prop :=
  ∀ m : Machine, m.AtStatement → Ends a m (fun next k => m.Lands next.line? k) fun _ k => m.SameLines k

/-- An operation on the names that fails leaves all lines as they were. -/
theorem ends_reply {α : Type} {f : Symbols → Except Fault (α × Symbols)} {k : α → Act Next} {m : Machine}
    {Q : Next → Machine → Prop}
    (hk : ∀ x s, f m.symbols = .ok (x, s) → Ends (k x) { m with symbols := s } Q fun _ l => m.SameLines l) :
    Ends (onSymbolsReply f >>= k) m Q fun _ l => m.SameLines l := by
  refine ends_bind ((ends_onSymbolsReply f m).mono (fun _ _ => id) ?_) ?_
  · rintro _ _ ⟨-, rfl⟩
    exact .refl _
  · rintro x _ ⟨s, hs, rfl⟩
    exact hk x s hs

/-! ## Keywords that choose a line -/

/-- **A jump leads to a line of the script.** -/
theorem jumpTarget_lt {cursor lines n : Nat} {operand : Option Value} (h : jumpTarget cursor lines operand = .ok n) :
    n < lines := by
  unfold jumpTarget at h
  obtain ⟨requested, -, h⟩ := Symbols.bind_eq_ok h
  split_ifs at h with hinside
  cases h
  omega

theorem landing_runJump (i : Invocation) : Landing (runJump i) := by
  refine fun m hm => ends_get (ends_ofExcept_bind (fun n hn => ends_pure ?_) fun _ _ => .refl m)
  exact hm.lands_line hm.inScript.symbols rfl (Nat.le_of_lt (jumpTarget_lt hn))

theorem landing_runExecute (i : Invocation) : Landing (runExecute i) := by
  refine fun m hm => ends_ofExcept_bind (fun name _ => ends_get ?_) fun _ _ => .refl m
  refine ends_reply fun start s hs => ends_pure ?_
  obtain ⟨hstart, hsymbols, hfree⟩ := hm.inScript.symbols.call hm.inside hs
  exact hm.lands_line hsymbols hfree hstart

theorem landing_runIterate (i : Invocation) : Landing (runIterate i) := by
  intro m hm
  unfold runIterate
  split
  · refine ends_ofExcept_bind (fun name _ => ends_get ?_) fun _ _ => .refl m
    refine ends_reply fun reply s hs => ?_
    cases reply with
    | some start =>
      obtain ⟨hstart, hsymbols, hfree⟩ := hm.inScript.symbols.iterate hm.inside hs
      exact ends_pure (hm.lands_line hsymbols hfree hstart)
    | none =>
      obtain rfl := Symbols.iterate_eq_ok_none hs
      exact ends_pure (hm.lands_next (.refl m))
  · exact ends_throw (.refl m)

theorem landing_runEnd (i : Invocation) : Landing (runEnd i) := by
  refine fun m hm => ends_ofExcept_bind (fun name _ => ?_) fun _ _ => .refl m
  refine ends_reply fun reply s hs => ?_
  cases reply with
  | resume line =>
    obtain ⟨hline, hsymbols, hfree⟩ := hm.inScript.symbols.finishCall hs
    exact ends_pure (hm.lands_line hsymbols hfree hline)
  | ignored =>
    -- An `end` that is ignored changes no calls.
    obtain ⟨f, -, ⟨-, rfl, -⟩ | ⟨frame, outer, -, -, ⟨-, hreply, -⟩ | ⟨it, -, ⟨_, _, -, -, hreply, -⟩ |
      ⟨-, hreply, -⟩⟩⟩⟩ := Symbols.finishCall_eq_ok hs
    · exact ends_pure (hm.lands_next (.refl m))
    all_goals cases hreply

theorem landing_runFunction (i : Invocation) : Landing (runFunction i) := by
  refine fun m hm => ends_ofExcept_bind (fun name _ => ?_) fun _ _ => .refl m
  -- Reading the parameters may warn, which leaves all lines as they were.
  refine ends_bind (keeps_readParameters name [] (i.args.drop 1) m) fun params l hl => ends_get ?_
  have hl' := hm.of_sameLines hl
  refine (ends_reply (Q := fun next k => l.Lands next.line? k) fun reply s hs => ?_).mono
    (fun _ _ h => hl.lands h) fun _ _ h => hl.trans h
  obtain ⟨hsymbols, ⟨rfl, hopened⟩ | ⟨line, rfl, hline, hfree⟩⟩ := hl'.inScript.symbols.declareFunction hl'.inside hs
  · exact ends_pure ⟨rfl, hl'.inside, hsymbols, hopened⟩
  · exact ends_pure (hl'.lands_line hsymbols hfree hline)

/-- A reset machine stands on the first line of its script. -/
theorem InScript.hardReset (m : Machine) : m.hardReset.InScript :=
  ⟨Nat.zero_le _, Symbols.inScript_clear _ _, .of_declaring rfl _⟩

theorem InScript.softReset {m : Machine} (hm : m.InScript) : m.softReset.InScript :=
  ⟨Nat.zero_le _, hm.symbols.resetPass, .of_declaring rfl _⟩

theorem landing_runStop : Landing runStop := by
  refine fun m _ => ends_modify_bind (ends_pure ⟨rfl, ?_⟩)
  exact (InScript.hardReset m).of_sameLines (sameLines_mode _ _)

theorem landing_runRestart (i : Invocation) : Landing (runRestart i) := by
  refine fun m hm => ends_modify_bind (ends_pure ?_)
  split
  · exact ⟨rfl, hm.inScript.softReset⟩
  · exact ⟨rfl, InScript.hardReset m⟩

/-- **Every keyword lands inside of the script.** -/
theorem landing_runBuiltin (b : Builtin) (i : Invocation) (depth : Nat) : Landing (runBuiltin b i depth) := by
  cases hb : b.transfersControl with
  | false =>
    intro m hm
    have hstays := (keeps_staying sameLines_mode hb i depth m).and (answers_stays hb i depth m)
    refine hstays.mono (fun next k hk => ?_) fun _ _ h => h.1
    rw [hk.2]
    exact hm.lands_next hk.1
  | true =>
    cases b with
    | jump => exact landing_runJump i
    | execute => exact landing_runExecute i
    | iterate => exact landing_runIterate i
    | function => exact landing_runFunction i
    | finish => exact landing_runEnd i
    | stop => exact landing_runStop
    | restart => exact landing_runRestart i
    | _ => cases hb

/-! ## Statements and lines -/

theorem Plain.lands_runKeyword {m : Machine} (hplain : m.Plain) (hm : m.AtStatement) (inv : Invoke) (i : Invocation)
    (depth : Nat) :
    Ends (Machine.runKeyword inv i depth) m (fun next k => m.Lands next.line? k) fun _ k => m.SameLines k := by
  unfold Machine.runKeyword
  split
  · exact ends_bind (keeps_warn _ m) fun _ _ h => ends_pure (hm.lands_next h)
  · refine ends_get ?_
    rw [hplain.find?_keyword]
    dsimp only
    split
    · rename_i b _
      exact ends_ofExcept_bind (fun _ _ => landing_runBuiltin b i depth m hm) fun _ _ => .refl m
    · exact ends_throw (.refl m)

theorem Plain.lands_dispatch {m : Machine} (hplain : m.Plain) (hm : m.AtStatement) (inv : Invoke) (s : Statement)
    (depth : Nat) :
    Ends (Machine.dispatch inv s depth) m (fun next k => m.Lands next.line? k) fun _ k => m.SameLines k := by
  unfold Machine.dispatch
  dsimp only
  split
  · exact ends_throw (.refl m)
  · refine ends_get (ends_ofExcept_bind (fun _ _ => ends_get ?_) fun _ _ => .refl m)
    refine ends_bind (hplain.lands_runKeyword hm inv _ depth) fun next k hk => ends_modify_bind (ends_pure ?_)
    exact hk.trans (k.sameLines_leaveContext _ _)

/-- **A row of tokens lands inside of the script, its nested code included**, by induction on the bound of the nesting:
what goes on with nested code has changed only contexts. -/
theorem Plain.lands_runNested (inv : Invoke) (bound : Nat) {m : Machine} (hplain : m.Plain) (hm : m.AtStatement)
    (tokens : List Token) (depth : Nat) :
    Ends (runNested inv bound tokens depth) m (fun next k => m.Lands next k) fun _ k => m.SameLines k := by
  induction bound generalizing m tokens depth with
  | zero => exact ends_pure (hm.lands_next (.refl m))
  | succ bound ih =>
    cases tokens with
    | nil => exact ends_pure (hm.lands_next (.refl m))
    | cons first rest =>
      have hcons := runNested_cons inv bound first rest depth m
      have hopen := m.sameLines_openContext depth
      have hplain' := hplain.openContext depth
      obtain ⟨cs, hcs, -⟩ := m.openContext_eq_withContexts depth
      split_ifs at hcons
      · exact (ends_pure (hm.lands_next hopen)).of_apply_eq hcons
      · have hdispatch := ((hplain'.lands_dispatch (hm.of_sameLines hopen) inv
          (Statement.ofTokens m.registry.isLabel first rest) depth).and (ends_of_ok fun _ _ => id)).mono
            (fun _ _ => id) fun _ _ h => hopen.trans h.1
        refine (ends_bind hdispatch fun next k hk => ?_).of_apply_eq hcons
        obtain ⟨hlands, hok⟩ := hk
        cases next with
        | following => exact ends_pure (hopen.lands hlands)
        | line n => exact ends_pure (hopen.lands hlands)
        | nested skip =>
          obtain ⟨-, cs', -, hk⟩ := dispatch_nested hok
          rw [hcs] at hk
          have hsame : m.SameLines k := by
            rw [hk]
            exact m.sameLines_withContexts cs'
          refine (ih (hplain'.dispatch hok) (hm.of_sameLines hsame) _ _).mono (fun _ _ h => hsame.lands h) ?_
          exact fun _ _ h => hsame.trans h

/-- **A line lands inside of the script.** -/
theorem Plain.lands_runLine {m : Machine} (hplain : m.Plain) (hm : m.AtStatement) (inv : Invoke) (line : String) :
    Ends (Machine.runLine inv line) m (fun next k => m.Lands next k) fun _ k => m.SameLines k := by
  refine ends_get (ends_ofExcept_bind (fun tokens _ => ?_) fun _ _ => .refl m)
  refine ends_finally ((hplain.lands_runNested inv _ hm tokens 0).mono (fun _ k hk => ?_) fun _ k hk => ?_)
  · exact hk.trans (k.sameLines_withContexts _)
  · exact hk.trans (k.sameLines_withContexts _)

/-! ## Moves of a run -/

/-- A line that counts is a statement. -/
theorem InScript.atStatement {m : Machine} (hm : m.InScript) {line : String}
    (hline : m.script.lines[m.cursor]? = some line) (hcounts : m.counts line = true) : m.onLine.AtStatement := by
  obtain ⟨hinside, -⟩ := Array.getElem?_eq_some_iff.mp hline
  have hfree : m.symbols.declaring = none := by
    unfold counts at hcounts
    simpa using (Bool.and_eq_true_iff.mp hcounts).2
  exact ⟨⟨hm.cursor, hm.symbols, hm.opened⟩, hinside, hfree⟩

/-- **Passing over a line** leads to the next one, and the body of a function may end on it. -/
theorem InScript.pass {m : Machine} (hm : m.InScript) {line : String} (hinside : m.cursor < m.script.lines.size) :
    (m.pass line).InScript := by
  have hstays : m.symbols.OpenedBefore (m.cursor + 1) := hm.opened.mono (Nat.le_succ _)
  unfold Machine.pass
  dsimp only
  split_ifs
  · exact ⟨hinside, hm.symbols, hstays⟩
  · split
    · split_ifs
      · obtain ⟨hsymbols, hfree⟩ := hm.symbols.finishDeclaration hm.opened hinside
        exact ⟨hinside, hsymbols, .of_declaring hfree _⟩
      · exact ⟨hinside, hm.symbols, hstays⟩
    · exact ⟨hinside, hm.symbols, hstays⟩

/-- **A move of a run stays in the script.** -/
theorem InScript.advance {m : Machine} (hm : m.InScript) (hplain : m.Plain) {t : Stretch} (h : m.advance = some t) :
    t.last.InScript := by
  unfold Machine.advance at h
  split at h
  · cases h
    exact hm.of_sameLines (sameLines_mode _ _)
  · split at h
    · cases h
      exact hm.of_sameLines (sameLines_mode _ _)
    · rename_i line hline
      split_ifs at h with hcounts
      · cases h
        have hlands := hplain.onLine.lands_runLine (hm.atStatement hline hcounts) (invoke m.nesting) line
        rw [guarded_apply, runCursorLine_apply _ hline, bind_apply]
        rcases hrun : Machine.runLine (invoke m.nesting) line m.onLine with ⟨f | next, k⟩
        · have hline' : m.onLine.InScript := (hm.atStatement hline hcounts).inScript
          exact (hline'.of_sameLines (hlands.of_error hrun)).of_sameLines (sameLines_fail f k)
        · exact (hlands.of_ok hrun).inScript
      · cases h
        obtain ⟨hinside, -⟩ := Array.getElem?_eq_some_iff.mp hline
        exact hm.pass hinside
  · cases h

/-- What a run keeps is kept from move to move. -/
theorem Reachable.inScript_stretch {m : Machine} (h : m.Reachable) (hm : m.InScript) (n : Nat) :
    (m.stretch n).last.InScript := by
  have hkept : (m.stretch n).last.Reachable ∧ (m.stretch n).last.InScript := by
    refine stretch_keeps (P := fun m => m.Reachable ∧ m.InScript) ?_ ⟨h, hm⟩ n
    rintro m t ⟨hreach, hin⟩ hmove
    exact ⟨hreach.move hmove, hin.advance hreach.plain hmove⟩
  exact hkept.2

/-! ## Calls of the host -/

end Machine

/-- A call that runs no line of the host. -/
def HostCall.runsNoLine : HostCall → Bool
  | execute _ => false
  | _ => true

namespace Machine

theorem InScript.load {m : Machine} (hm : m.InScript) (text name : String) : (Machine.load text name m).2.InScript := by
  unfold Machine.load
  rw [bind_apply, ofExcept_apply]
  cases Script.ofText? text with
  | error f => exact hm
  | ok script => exact ⟨Nat.zero_le _, Symbols.inScript_clear _ _, .of_declaring rfl _⟩

theorem InScript.launch {m : Machine} (hm : m.InScript) : (Machine.launch m).2.InScript := by
  rcases hlaunch : Machine.launch m with ⟨answer, k⟩
  rcases launch_cases hlaunch with ⟨f, -, -, rfl⟩ | ⟨-, -, rfl⟩
  · have hidle : InScript { m with executing := none } := ⟨hm.cursor, hm.symbols, hm.opened⟩
    exact hidle.of_sameLines (sameLines_fail f _)
  · exact ⟨Nat.zero_le _, Symbols.inScript_clear _ _, .of_declaring rfl _⟩

theorem InScript.resume {m : Machine} (hm : m.InScript) : m.resume.InScript := by
  unfold Machine.resume
  split <;> exact ⟨hm.cursor, hm.symbols, hm.opened⟩

theorem InScript.run {m k : Machine} (hm : m.InScript) (h : m.Reachable) {fuel : Nat} {limit : Option Nat}
    {answer : Except Fault Nat} (hrun : m.run fuel limit = some (answer, k)) : k.InScript := by
  obtain ⟨n, rfl⟩ := exists_stretch_run h.avoidsExtensions hrun
  exact h.inScript_stretch hm n

theorem InScript.start {m k : Machine} (hm : m.InScript) (h : m.Reachable) {fuel : Nat} {answer : Except Fault Unit}
    (hstart : m.start fuel = some (answer, k)) : k.InScript := by
  have hlaunch := hm.launch
  have hreach := h.launch
  rcases start_cases hstart with ⟨-, -, rfl⟩ | ⟨-, hl | ⟨s, result, hl, hrun, -⟩⟩
  · exact hm.resume
  · rw [hl] at hlaunch
    exact hlaunch
  · rw [hl] at hlaunch hreach
    exact hlaunch.run hreach hrun

/-- **A call of the host stays in the script**, unless it runs a line of its own. -/
theorem InScript.call {m k : Machine} (hm : m.InScript) (h : m.Reachable) {c : HostCall} {answer : Except Fault Unit}
    (hscript : c.runsNoLine = true) (hc : c.perform m = some (answer, k)) : k.InScript := by
  cases c with
  | load text name =>
    obtain rfl : (Machine.load text name m).2 = k := congrArg Prod.snd (Option.some.inj hc)
    exact hm.load text name
  | start fuel => exact hm.start h hc
  | startWith fuel budget =>
    replace hc : m.startWith fuel budget = some (answer, k) := hc
    unfold Machine.startWith at hc
    split_ifs at hc
    · cases hc
      exact hm.of_sameLines (sameLines_fail _ m)
    · have hbudget : (m.withBudget budget).InScript := ⟨hm.cursor, hm.symbols, hm.opened⟩
      exact hbudget.start (h.withBudget budget) hc
  | tick =>
    obtain rfl : (Machine.tick m).2 = k := congrArg Prod.snd (Option.some.inj hc)
    obtain ⟨n, hn⟩ := exists_stretch_tick h.avoidsExtensions
    rw [hn]
    exact h.inScript_stretch hm n
  | run fuel limit =>
    obtain ⟨⟨count, k'⟩, hrun, hsame⟩ := Option.map_eq_some_iff.mp hc
    cases hsame
    exact hm.run h hrun
  | pause =>
    cases hc
    unfold Machine.pause
    split <;> exact ⟨hm.cursor, hm.symbols, hm.opened⟩
  | resume =>
    cases hc
    exact hm.resume
  | stop =>
    cases hc
    exact (InScript.hardReset m).of_sameLines (sameLines_mode _ _)
  | execute text => cases hscript
  | deliverKey key =>
    cases hc
    have hsame : m.SameLines (m.deliverKey key) := by
      unfold Machine.deliverKey
      dsimp only
      split_ifs <;> constructor <;> rfl
    exact hm.of_sameLines hsame
  | provide name value =>
    cases hc
    exact ⟨hm.cursor, hm.symbols.of_same rfl rfl, hm.opened.of_same rfl rfl⟩
  | print message =>
    cases hc
    exact hm.of_sameLines (overlookingStores_sameLines.print m message)

/-- **Calls and moves keep the lines of a machine in its script.** -/
theorem ReachedBy.inScript {m : Machine} (h : m.ReachedBy HostCall.runsNoLine false) : m.InScript := by
  induction h with
  | new s search => exact ⟨Nat.zero_le _, Symbols.inScript_empty _, .of_declaring rfl _⟩
  | call c hm hscript hc ih => exact ih.call hm.reachable hscript hc
  | register debug e _ hno => cases hno
  | clock now _ ih => exact ⟨ih.cursor, ih.symbols, ih.opened⟩
  | @launch m n _ ih =>
    have hbudget : (m.withBudget n).InScript := ⟨ih.cursor, ih.symbols, ih.opened⟩
    exact hbudget.launch
  | move hm hmove ih => exact ih.advance hm.reachable.plain hmove

/-! ## The main statement -/

/-- A script that has been looked at for its end and is still running has a line under the cursor. -/
theorem line_of_finishIfDone {m : Machine} (h : m.finishIfDone.mode = .running) :
    ∃ line, m.finishIfDone.script.lines[m.finishIfDone.cursor]? = some line := by
  by_cases hmode : m.mode = .running
  · rcases finishIfDone_cases hmode with ⟨-, hfinished⟩ | ⟨hline, hsame⟩
    · rw [hfinished] at h
      cases h
    · rw [hsame]
      exact hline
  · have hsame : m.finishIfDone = m := if_neg fun hend => hmode hend.1
    rw [hsame] at h
    exact absurd h hmode

/-- **Control never leaves the script.**  As long as a host without extensions runs no line of its own, in every state
that its calls and the moves of its runs lead to:

* the cursor stands on a line of the script or behind the last one;
* every function has its first line there, and once it is ended its last line is a line of the script, no earlier;
* every running call returns to a line of the script;
* the line that a statement goes on with is a line of the script or the end behind it;
* a script that has been looked at for its end and is still running has a line under the cursor. -/
theorem control_stays_in_script {m : Machine} (h : m.ReachedBy HostCall.runsNoLine false) :
    m.cursor ≤ m.script.lines.size ∧
    (∀ name f, m.symbols.functions.find? name = some f → f.start ≤ m.script.lines.size ∧
      (f.ended = true → ∃ e, f.finish = some e ∧ f.start ≤ e ∧ e < m.script.lines.size)) ∧
    (∀ frame ∈ m.symbols.calls, frame.returnLine < m.script.lines.size) ∧
    (∀ line n k, m.mode = .running → m.script.lines[m.cursor]? = some line → m.counts line = true →
      Machine.runLine (invoke m.nesting) line m.onLine = (.ok (some n), k) → n ≤ m.script.lines.size) ∧
    (m.finishIfDone.mode = .running → ∃ line, m.finishIfDone.script.lines[m.finishIfDone.cursor]? = some line) := by
  have hm := h.inScript
  refine ⟨hm.cursor, ?_, hm.symbols.calls, ?_, line_of_finishIfDone⟩
  · intro name f hf
    have hbody := hm.symbols.functions name f hf
    refine ⟨hbody.start, fun hended => ?_⟩
    obtain ⟨e, he⟩ := Option.isSome_iff_exists.mp (hbody.ended hended)
    exact ⟨e, he, hbody.finish e he⟩
  · intro line n k _ hline hcounts hrun
    have hstatement := hm.atStatement hline hcounts
    have hlands := (h.reachable.plain.onLine.lands_runLine hstatement (invoke m.nesting) line).of_ok hrun
    have hn : n ≤ k.script.lines.size := hlands.inScript.cursor
    rwa [hlands.script] at hn

/-- A function that is called from the last line of its script. -/
def calledFromLastLine : Machine := ((started "function f\nlog in\nend f\nexecute f").stretch 4).last

theorem calledFromLastLine_reachedBy : calledFromLastLine.ReachedBy HostCall.runsNoLine false :=
  (ReachedBy.started _ rfl).stretch 4

/-- The call returns to the last line, and behind it the script is over. -/
theorem control_stays_in_script_of_last_line : calledFromLastLine.ReachedBy HostCall.runsNoLine false ∧
    calledFromLastLine.symbols.calls.map (·.returnLine) = [3] ∧ calledFromLastLine.script.lines.size = 4 ∧
    (∀ frame ∈ calledFromLastLine.symbols.calls, frame.returnLine < calledFromLastLine.script.lines.size) ∧
    ∃ f, calledFromLastLine.symbols.functions.find? "f" = some f ∧ f.ended = true ∧
      ∃ e, f.finish = some e ∧ f.start ≤ e ∧ e < calledFromLastLine.script.lines.size := by
  have hchecks : calledFromLastLine.symbols.calls.map (·.returnLine) = [3] ∧
      calledFromLastLine.script.lines.size = 4 ∧
      (calledFromLastLine.symbols.functions.find? "f").any (·.ended) = true := by
    decide +kernel
  obtain ⟨hcalls, hsize, hfunction⟩ := hchecks
  obtain ⟨f, hf, hended⟩ := (Option.any_eq_true _ _).mp hfunction
  obtain ⟨-, hfunctions, hframes, -⟩ := control_stays_in_script calledFromLastLine_reachedBy
  exact ⟨calledFromLastLine_reachedBy, hcalls, hsize, hframes, f, hf, hended, (hfunctions "f" f hf).2 hended⟩

end Machine

end LineScript
