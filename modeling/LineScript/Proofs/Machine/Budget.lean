/-
# Ticks end within their budget

`Machine.tick` goes on to the next statement in one go.  The loop of the program takes a round for each line instead
and counts the statements among them; what a statement answers stays in a register, the target, until a step takes
it up.  `Engine` is a machine with this register, and `Engine.tickLoop` and `Engine.runLoop` are the loops, with a
bound on their rounds.

Lines without statement cost nothing, and statements may lead back, so neither the budget nor the cursor alone bounds
the loop.  The pair of both does, as long as no target is pending at the head of a round: then a passed line moves the
cursor on by one (`step_pass`), and so a statement comes after at most as many rounds as there are lines.

* `Engine.Reachable.settled`: no target is pending between rounds and between calls of the host;
* `Plain.tickLoop_eq`, `Plain.runLoop_eq`: the loops come back, with what `Machine.tick` and `Machine.run` answer;
* `ticks_end_within_budget`: the main statement.
-/
import LineScript.Proofs.Machine.Turn
import LineScript.Proofs.Machine.Hosting

namespace LineScript

open Act Text

/-! ## Machines with a target -/

/-- A machine, and the line that a statement asked to go on with as long as no step has taken it up. -/
structure Engine where
  machine : Machine
  target : Option Nat := none

namespace Engine

/-- A running script that has no more lines is finished. -/
def finishIfDone (e : Engine) : Engine := { e with machine := e.machine.finishIfDone }

/-- End the run with a fault. -/
def fail (f : Fault) (e : Engine) : Engine := { e with machine := e.machine.fail f }

/-- Run a line.  The target that it answers takes the place of an earlier one. -/
def runLine (line : String) (e : Engine) : Except Fault Unit × Engine :=
  match Machine.runLine (Machine.invoke e.machine.nesting) line e.machine with
  | (.ok next, m) => (.ok (), ⟨m, next <|> e.target⟩)
  | (.error f, m) => (.error f, ⟨m, e.target⟩)

/-- Take the target up, or go on behind the line with this number. -/
def goOn (index : Nat) (e : Engine) : Engine :=
  ⟨{ e.machine with cursor := e.target.getD (index + 1) }, none⟩

/-- Skip a line in the body of a function that is being declared; only its `end` does anything. -/
def skip (name line : String) (index : Nat) (e : Engine) : Engine :=
  if e.machine.closes name line then
    { e with machine := { e.machine with symbols := e.machine.symbols.finishDeclaration index } }
  else e

/-- Execute the line under the cursor and move the cursor on.  Has it counted as a statement? -/
def step (e : Engine) : Except Fault Bool × Engine :=
  let index := e.machine.cursor
  match e.machine.script.lines[index]? with
  | none => (.ok false, e)
  | some line =>
    let e := { e with machine := e.machine.onLine }
    if isPassive line then (.ok false, e.goOn index)
    else match e.machine.symbols.declaring with
      | some name => (.ok false, (e.skip name line index).goOn index)
      | none => match e.runLine line with
        | (.ok (), e) => (.ok true, e.goOn index)
        | (.error f, e) => (.error f, e)

/-- The rounds of a tick, `spent` statements being begun so far; none when there are more than `rounds`. -/
def tickLoop : (rounds : Nat) → (spent : Nat) → Engine → Option (Except Fault Unit × Nat × Engine)
  | 0, _, _ => none
  | rounds + 1, spent, e =>
    if spent < e.machine.budget ∧ e.machine.mode = .running then
      let e := e.finishIfDone
      if e.machine.mode = .finished then some (.ok (), spent, e)
      else match e.step with
        | (.ok counted, e) => tickLoop rounds (spent + counted.toNat) e
        | (.error f, e) => some (.error f, spent + 1, e.fail f)
    else some (.ok (), spent, e.finishIfDone)

/-- A tick: its answer, and the number of statements that it began. -/
def tick (rounds : Nat) (e : Engine) : Option (Except Fault Unit × Nat × Engine) :=
  match e.machine.mode with
  | .waiting (.ticks left) => some (.ok (), 0, { e with machine := e.machine.countDown left })
  | .running => tickLoop rounds 0 e
  | _ => some (.ok (), 0, e)

/-- The rounds of a run up to a limit of statements, `count` of them being run so far. -/
def runLoop (limit : Option Nat) :
    (rounds : Nat) → (count : Nat) → Engine → Option (Except Fault Nat × Engine)
  | 0, _, _ => none
  | rounds + 1, count, e =>
    match e.machine.mode with
    | .waiting (.ticks left) => runLoop limit rounds count { e with machine := e.machine.countDown left }
    | .running =>
      let e := e.finishIfDone
      if e.machine.mode = .finished ∨ limit.any (· ≤ count) then some (.ok count, e)
      else match e.step with
        | (.ok counted, e) => runLoop limit rounds (count + counted.toNat) e
        | (.error f, e) => some (.error f, e.fail f)
    | _ => some (.ok count, e)

/-- Run a line of the host. -/
def execute (text : String) (e : Engine) : Except Fault Unit × Engine :=
  let line := trim (stripComment text)
  if isPassive line then (.ok (), e)
  else
    let (answer, e) := { e with machine := { e.machine with executing := none } }.runLine line
    (answer, ⟨{ e.machine with cursor := e.target.getD e.machine.cursor }, none⟩)

/-- What a round of a loop leaves of a running script. -/
def round (e : Engine) : Engine :=
  let e := e.finishIfDone
  if e.machine.mode = .finished then e
  else match e.step with
    | (.ok _, e) => e
    | (.error f, e) => e.fail f

/-! ## Rounds without pending target -/

variable {m : Machine} {line : String}

/-- **A line without statement moves the cursor on by one**, when no target is pending. -/
theorem step_pass (hline : m.script.lines[m.cursor]? = some line) (hcounts : m.counts line = false) :
    step ⟨m, none⟩ = (.ok false, ⟨m.pass line, none⟩) := by
  have hcase : isPassive line = true ∨ isPassive line = false ∧ ∃ name, m.symbols.declaring = some name := by
    unfold Machine.counts at hcounts
    cases hpassive : isPassive line with
    | true => exact Or.inl rfl
    | false => exact Or.inr ⟨rfl, Option.isSome_iff_exists.mp (by simpa [hpassive] using hcounts)⟩
  unfold step
  simp only [hline]
  obtain hpassive | ⟨hactive, name, hname⟩ := hcase
  · rw [if_pos hpassive]
    simp [goOn, Machine.pass, Machine.onLine, hpassive]
  · have hbody : m.onLine.symbols.declaring = some name := hname
    rw [if_neg (by simp [hactive]), hbody]
    -- The line is the `end` of the body, or one of its other lines.
    cases hcloses : ({ m with executing := some m.cursor } : Machine).closes name line with
    | true => simp [skip, goOn, Machine.pass, hactive, hname, hcloses, Machine.onLine]
    | false => simp [skip, goOn, Machine.pass, hactive, hname, hcloses, Machine.onLine]

/-- A statement runs as it does in a tick of the machine, and its target is taken up at once. -/
theorem step_statement (hline : m.script.lines[m.cursor]? = some line) (hcounts : m.counts line = true) :
    step ⟨m, none⟩ = match Machine.runCursorLine (Machine.invoke m.nesting) m with
      | (.ok (), k) => (.ok true, ⟨k, none⟩)
      | (.error f, k) => (.error f, ⟨k, none⟩) := by
  have hparts : isPassive line = false ∧ m.symbols.declaring = none := by
    simpa [Machine.counts] using hcounts
  have hbody : m.onLine.symbols.declaring = none := hparts.2
  have hnesting : m.onLine.nesting = m.nesting := rfl
  unfold step
  simp only [hline]
  rw [if_neg (by simp [hparts.1]), hbody, Machine.runCursorLine_apply _ hline, bind_apply]
  unfold runLine
  dsimp only
  rw [hnesting]
  rcases Machine.runLine (Machine.invoke m.nesting) line m.onLine with ⟨f | next, k⟩
  · rfl
  · cases next <;> rfl

/-- **A round is a move of the run**, when no target is pending. -/
theorem round_eq {t : Stretch} (hmode : m.mode = .running) (h : m.advance = some t) :
    round ⟨m, none⟩ = ⟨t.last, none⟩ := by
  unfold round finishIfDone
  dsimp only
  rcases Machine.finishIfDone_cases hmode with ⟨hend, hfinished⟩ | ⟨⟨line, hline⟩, hsame⟩
  · rw [if_pos hfinished]
    rw [h] at hend
    cases hend
    rfl
  · have hgoes : ¬ m.mode = .finished := by simp [hmode]
    rw [hsame, if_neg hgoes]
    cases hcounts : m.counts line with
    | false =>
      rw [Machine.advance_pass hmode hline hcounts] at h
      cases h
      rw [step_pass hline hcounts]
    | true =>
      rw [Machine.advance_statement hmode hline hcounts, Machine.guarded_apply] at h
      cases h
      rw [step_statement hline hcounts]
      rcases Machine.runCursorLine (Machine.invoke m.nesting) m with ⟨f | x, k⟩ <;> rfl

/-- A line of the host leaves no target. -/
theorem execute_eq (text : String) (m : Machine) :
    execute text ⟨m, none⟩ = ((Machine.execute text m).1, ⟨(Machine.execute text m).2, none⟩) := by
  rw [Machine.execute_apply]
  unfold execute Machine.executeWith
  dsimp only
  cases hpassive : isPassive (trim (stripComment text)) with
  | true => rfl
  | false =>
    unfold runLine
    dsimp only
    have hnesting : ({ m with executing := none } : Machine).nesting = m.nesting := rfl
    rw [hnesting]
    simp only [Bool.not_false, if_true, if_false, Bool.false_eq_true]
    rw [modify_bind_apply, bind_apply]
    rcases Machine.runLine (Machine.invoke m.nesting) (trim (stripComment text)) { m with executing := none }
      with ⟨f | next, k⟩
    · rfl
    · cases next <;> rfl

/-! ## Passing lines over -/

/-- Rounds that pass lines over, one line each, from a running script on. -/
inductive PassesOver : (rounds : Nat) → Machine → Machine → Prop
  | refl (m : Machine) : PassesOver 0 m m
  | pass {n : Nat} {m k l : Machine} : m.mode = .running → m.finishIfDone = m →
      step ⟨m, none⟩ = (.ok false, ⟨k, none⟩) → k.budget = m.budget → PassesOver n k l → PassesOver (n + 1) m l

/-- Going on to the next statement takes at most a round for each line that is left. -/
theorem passesOver_passOver (bound : Nat) {m : Machine} (hmode : m.mode = .running) :
    ∃ n ≤ bound, PassesOver n m (Machine.passOver bound m) := by
  induction bound generalizing m with
  | zero => exact ⟨0, Nat.le_refl 0, .refl m⟩
  | succ bound ih =>
    rw [Machine.passOver]
    cases hline : m.script.lines[m.cursor]? with
    | none => exact ⟨0, Nat.zero_le _, .refl m⟩
    | some line =>
      dsimp only
      split
      · exact ⟨0, Nat.zero_le _, .refl m⟩
      · rename_i hcounts
        obtain ⟨n, hn, hpasses⟩ := ih (m := m.pass line) hmode
        have hinside : m.cursor < m.script.lines.size := (Array.getElem?_eq_some_iff.mp hline).1
        have hstays : m.finishIfDone = m := if_neg fun h => absurd h.2 (Nat.not_le.mpr hinside)
        have hstep := step_pass hline (Bool.eq_false_iff.mpr hcounts)
        exact ⟨n + 1, Nat.succ_le_succ hn, .pass hmode hstays hstep rfl hpasses⟩

/-- They cost a tick nothing. -/
theorem PassesOver.tickLoop {n : Nat} {m k : Machine} (h : PassesOver n m k) {spent : Nat} (hspent : spent < m.budget)
    (rounds : Nat) : tickLoop (n + rounds) spent ⟨m, none⟩ = Engine.tickLoop rounds spent ⟨k, none⟩ := by
  induction h with
  | refl m => rw [Nat.zero_add]
  | @pass n m k l hmode hstays hstep hbudget _ ih =>
    have hgoes : ¬ m.mode = .finished := by simp [hmode]
    rw [Nat.succ_add, Engine.tickLoop, if_pos ⟨hspent, hmode⟩]
    unfold finishIfDone
    dsimp only
    rw [hstays, if_neg hgoes, hstep]
    exact ih (by rwa [hbudget])

/-- They do not count in a run. -/
theorem PassesOver.runLoop {n : Nat} {m k : Machine} (h : PassesOver n m k) {limit : Option Nat} {count : Nat}
    (hlimit : limit.any (· ≤ count) = false) (rounds : Nat) :
    runLoop limit (n + rounds) count ⟨m, none⟩ = Engine.runLoop limit rounds count ⟨k, none⟩ := by
  induction h with
  | refl m => rw [Nat.zero_add]
  | @pass n m k l hmode hstays hstep _ _ ih =>
    have hgoes : ¬ (m.mode = .finished ∨ limit.any (· ≤ count) = true) := by simp [hmode, hlimit]
    rw [Nat.succ_add, Engine.runLoop, hmode]
    unfold finishIfDone
    dsimp only
    rw [hstays, if_neg hgoes, hstep]
    exact ih

end Engine

namespace Machine

/-! ## What statements leave alone -/

/-- A statement changes neither the script nor the budget. -/
theorem Plain.runCursorLine_leaves {m : Machine} (hm : m.Plain) (inv : Invoke) :
    (Machine.runCursorLine inv m).2.script = m.script ∧ (Machine.runCursorLine inv m).2.budget = m.budget := by
  constructor
  · cases hline : m.script.lines[m.cursor]? with
    | none =>
      have hnothing : Machine.runCursorLine inv m = (.ok (), m) := by
        rw [Machine.runCursorLine, get_bind_apply, hline]
        rfl
      rw [hnothing]
    | some line =>
      rw [runCursorLine_apply inv hline, bind_apply]
      have hturn := hm.onLine.turn_runLine inv line
      rcases hrun : Machine.runLine inv line m.onLine with ⟨f | next, k⟩
      · exact (hturn.of_error hrun).script
      · exact (hturn.of_ok hrun).script_eq
  · exact LineAvoidsExtensions.budget_eq (fun inv inv' => (runCursorLine_registry (by simp [hm.keywords]) inv inv').1) inv

/-- Passing lines over changes neither the script nor the budget. -/
theorem passOver_leaves (bound : Nat) (m : Machine) :
    (passOver bound m).script = m.script ∧ (passOver bound m).budget = m.budget := by
  induction bound generalizing m with
  | zero => exact ⟨rfl, rfl⟩
  | succ bound ih =>
    rw [passOver]
    split
    · exact ⟨rfl, rfl⟩
    · split
      · exact ⟨rfl, rfl⟩
      · exact ih (m.pass _)

/-- **What is met at the next statement**: the script ends there, or a line counts there. -/
theorem settle_cases {m : Machine} (hmode : m.mode = .running) :
    m.settle.finishIfDone.mode = .finished ∨ m.settle.finishIfDone = m.settle ∧ m.settle.mode = .running ∧
      ∃ line, m.settle.script.lines[m.settle.cursor]? = some line ∧ m.settle.counts line = true := by
  have hsettled : m.settle.mode = .running := (passOver_reaches _ hmode).2
  rcases finishIfDone_cases hsettled with ⟨-, hfinished⟩ | ⟨⟨line, hline⟩, hsame⟩
  · exact Or.inl hfinished
  · refine Or.inr ⟨hsame, hsettled, ?_⟩
    rcases passOver_stops (m.script.lines.size - m.cursor) m (by omega) with hnone | hsome
    · cases hnone.symm.trans hline
    · exact hsome

theorem Plain.settle {m : Machine} (hm : m.Plain) (hmode : m.mode = .running) : m.settle.Plain := by
  obtain ⟨⟨n, -, hn⟩, -⟩ := passOver_reaches (m.script.lines.size - m.cursor) hmode
  have hlast : m.settle = (m.stretch n).last := by
    rw [hn]
    rfl
  rw [hlast]
  exact stretch_keeps (fun hplain hmove => hplain.advance hmove) hm n

/-- A statement of a plain machine does the same with any bound for the keywords of extensions. -/
theorem Plain.runCursorLine_eq {m : Machine} (hm : m.Plain) (inv inv' : Invoke) :
    Machine.runCursorLine inv m = Machine.runCursorLine inv' m :=
  (runCursorLine_registry hm.keywords inv inv').1

/-! ## Ticks -/

/-- **The rounds of a tick come back**: at most one round for each line before a statement, and one for it. -/
theorem Plain.tickLoop_eq (inv : Invoke) (left : Nat) {m : Machine} (hm : m.Plain) {spent rounds : Nat}
    (hspent : spent + left = m.budget) (hrounds : left * (m.script.lines.size + 1) < rounds) :
    ∃ spent' ≤ m.budget, Engine.tickLoop rounds spent ⟨m, none⟩ =
      some (((spend inv left >>= fun _ => modify finishIfDone) m).1, spent',
        ⟨((spend inv left >>= fun _ => modify finishIfDone) m).2, none⟩) := by
  -- The induction is on the statements that are left; before each of them come rounds that pass lines over.
  induction left generalizing m spent rounds with
  | zero =>
    obtain ⟨rounds, rfl⟩ : ∃ r, rounds = r + 1 := ⟨rounds - 1, by omega⟩
    refine ⟨spent, by omega, ?_⟩
    rw [Engine.tickLoop, if_neg (by simp; omega)]
    rfl
  | succ left ih =>
    by_cases hmode : m.mode = .running
    · obtain ⟨n, hn, hpasses⟩ := Engine.passesOver_passOver (m.script.lines.size - m.cursor) hmode
      have hleaves := passOver_leaves (m.script.lines.size - m.cursor) m
      change Engine.PassesOver n m m.settle at hpasses
      change m.settle.script = m.script ∧ m.settle.budget = m.budget at hleaves
      have hproduct : (left + 1) * (m.script.lines.size + 1) =
          left * (m.script.lines.size + 1) + (m.script.lines.size + 1) := Nat.succ_mul _ _
      obtain ⟨rounds, rfl⟩ : ∃ r, rounds = n + (r + 1) := ⟨rounds - n - 1, by omega⟩
      have hsettled : m.settle.mode = .running := (passOver_reaches _ hmode).2
      have hbelow : spent < m.settle.budget ∧ m.settle.mode = .running := ⟨by omega, hsettled⟩
      rw [hpasses.tickLoop (by omega), Engine.tickLoop, if_pos hbelow, bind_apply, spend_succ inv left hmode]
      unfold Engine.finishIfDone
      dsimp only
      rcases settle_cases hmode with hfinished | ⟨hsame, -, line, hline, hcounts⟩
      · have hover : ¬ m.settle.finishIfDone.mode = .running := by simp [hfinished]
        have hidle : m.settle.finishIfDone.finishIfDone = m.settle.finishIfDone := if_neg fun h => hover h.1
        refine ⟨spent, by omega, ?_⟩
        rw [if_pos hfinished, if_neg hover]
        dsimp only
        rw [modify_apply, hidle]
      · have hgoes : ¬ m.settle.mode = .finished := by simp [hsettled]
        have hplain := hm.settle hmode
        rw [hsame, if_neg hgoes, if_pos hsettled, Engine.step_statement hline hcounts, bind_apply, guarded_apply,
          hplain.runCursorLine_eq inv (invoke m.settle.nesting)]
        have hkept := hplain.runCursorLine_leaves (invoke m.settle.nesting)
        have hplain' := hplain.runCursorLine (invoke m.settle.nesting)
        rw [hleaves.1, hleaves.2] at hkept
        rcases hrun : Machine.runCursorLine (invoke m.settle.nesting) m.settle with ⟨f | x, k⟩
        · exact ⟨spent + 1, by omega, rfl⟩
        · rw [hrun] at hkept hplain'
          have hleft : spent + 1 + left = k.budget := by rw [hkept.2]; omega
          have henough : left * (k.script.lines.size + 1) < rounds := by rw [hkept.1]; omega
          obtain ⟨spent', hspent', hrest⟩ := ih hplain' hleft henough
          rw [hkept.2] at hspent'
          exact ⟨spent', hspent', by rw [bind_apply] at hrest; exact hrest⟩
    · obtain ⟨rounds, rfl⟩ : ∃ r, rounds = r + 1 := ⟨rounds - 1, by omega⟩
      refine ⟨spent, by omega, ?_⟩
      rw [Engine.tickLoop, if_neg fun h => hmode h.2, bind_apply, (spend_of_not_running inv (left + 1) hmode).1]
      rfl

/-- **A tick comes back** with what the machine answers, and begins no more statements than the budget allows. -/
theorem Plain.engine_tick {m : Machine} (hm : m.Plain) {rounds : Nat}
    (hrounds : m.budget * (m.script.lines.size + 1) < rounds) :
    ∃ spent ≤ m.budget, Engine.tick rounds ⟨m, none⟩ = some ((tick m).1, spent, ⟨(tick m).2, none⟩) := by
  rw [tick_apply]
  unfold Engine.tick
  dsimp only
  cases hmode : m.mode with
  | running => exact hm.tickLoop_eq (invoke m.nesting) m.budget (Nat.zero_add _) hrounds
  | waiting w => cases w <;> exact ⟨0, Nat.zero_le _, rfl⟩
  | idle | paused | finished | failed => exact ⟨0, Nat.zero_le _, rfl⟩

/-! ## Runs -/

/-- The run comes back with this answer, and leads to this machine, when it gets rounds enough. -/
def ComesBack (limit : Option Nat) (count : Nat) (m : Machine) (answer : Except Fault Nat) (k : Machine) : Prop :=
  ∃ rounds, ∀ more ≥ rounds, Engine.runLoop limit more count ⟨m, none⟩ = some (answer, ⟨k, none⟩)

variable {limit : Option Nat} {count : Nat} {m k : Machine} {answer : Except Fault Nat}

/-- One round is enough for an end of the run. -/
theorem comesBack_of_end
    (h : ∀ rounds, Engine.runLoop limit (rounds + 1) count ⟨m, none⟩ = some (answer, ⟨k, none⟩)) :
    ComesBack limit count m answer k := by
  refine ⟨1, fun more hmore => ?_⟩
  obtain ⟨rounds, rfl⟩ : ∃ r, more = r + 1 := ⟨more - 1, by omega⟩
  exact h rounds

/-- Rounds before a run that comes back. -/
theorem ComesBack.after {l : Machine} {count' : Nat} (h : ComesBack limit count' l answer k) (n : Nat)
    (hrounds : ∀ rounds, Engine.runLoop limit (n + rounds) count ⟨m, none⟩ =
      Engine.runLoop limit rounds count' ⟨l, none⟩) :
    ComesBack limit count m answer k := by
  obtain ⟨enough, hback⟩ := h
  refine ⟨n + enough, fun more hmore => ?_⟩
  obtain ⟨rounds, rfl⟩ : ∃ r, more = n + r := ⟨more - n, by omega⟩
  rw [hrounds]
  exact hback rounds (by omega)

/-- **The rounds of a run come back** when the machine's do, with the same answer. -/
theorem Plain.runLoop_eq (fuel : Nat) (hm : m.Plain) (h : runFrom limit fuel count m = some (answer, k)) :
    ComesBack limit count m answer k := by
  induction fuel generalizing count m with
  | zero => cases h
  | succ fuel ih =>
    by_cases hmode : m.mode = .running
    · rw [runFrom, hmode] at h
      dsimp only at h
      rcases finishIfDone_cases hmode with ⟨-, hfinished⟩ | ⟨-, hsame⟩
      · rw [if_pos (Or.inl (by simp [hfinished]))] at h
        cases h
        refine comesBack_of_end fun rounds => ?_
        rw [Engine.runLoop, hmode]
        exact if_pos (Or.inl hfinished)
      · rw [hsame] at h
        cases hlimit : limit.any (· ≤ count) with
        | true =>
          rw [if_pos (Or.inr hlimit)] at h
          cases h
          refine comesBack_of_end fun rounds => ?_
          rw [Engine.runLoop, hmode]
          unfold Engine.finishIfDone
          dsimp only
          rw [hsame]
          exact if_pos (Or.inr hlimit)
        | false =>
          rw [if_neg (by simp [hmode, hlimit])] at h
          obtain ⟨n, -, hpasses⟩ := Engine.passesOver_passOver (m.script.lines.size - m.cursor) hmode
          have hsettled : m.settle.mode = .running := (passOver_reaches _ hmode).2
          suffices hback : ComesBack limit count m.settle answer k from
            hback.after n fun rounds => hpasses.runLoop hlimit rounds
          rcases settle_cases hmode with hfinished | ⟨hstays, -, line, hline, hcounts⟩
          · rw [if_pos (by simp [hfinished])] at h
            cases h
            refine comesBack_of_end fun rounds => ?_
            rw [Engine.runLoop, hsettled]
            exact if_pos (Or.inl hfinished)
          · rw [hstays, if_neg (by simp [hsettled]), guarded_apply] at h
            have hround : ∀ rounds, Engine.runLoop limit (rounds + 1) count ⟨m.settle, none⟩ =
                match Engine.step ⟨m.settle, none⟩ with
                | (.ok counted, e) => Engine.runLoop limit rounds (count + counted.toNat) e
                | (.error f, e) => some (.error f, e.fail f) := by
              intro rounds
              rw [Engine.runLoop, hsettled]
              unfold Engine.finishIfDone
              dsimp only
              rw [hstays]
              exact if_neg (by simp [hsettled, hlimit])
            have hplain' := (hm.settle hmode).runCursorLine (invoke m.settle.nesting)
            rcases hrun : Machine.runCursorLine (invoke m.settle.nesting) m.settle with ⟨f | x, l⟩
            · rw [hrun] at h
              cases h
              refine comesBack_of_end fun rounds => ?_
              rw [hround, Engine.step_statement hline hcounts, hrun]
              rfl
            · rw [hrun] at h hplain'
              refine ComesBack.after (ih hplain' h) 1 fun rounds => ?_
              rw [Nat.add_comm, hround, Engine.step_statement hline hcounts, hrun]
              rfl
    · by_cases hwait : ∃ left, m.mode = .waiting (.ticks left)
      · obtain ⟨left, hwait⟩ := hwait
        rw [runFrom, hwait] at h
        have hplain' : (m.countDown left).Plain := ⟨hm.keywords, hm.coherent, hm.nonempty⟩
        refine ComesBack.after (ih hplain' h) 1 fun rounds => ?_
        rw [Nat.add_comm, Engine.runLoop, hwait]
      · have hrest := (runFrom_of_rest limit fuel count hmode fun left hw => hwait ⟨left, hw⟩).1
        rw [hrest] at h
        cases h
        refine comesBack_of_end fun rounds => ?_
        unfold Engine.runLoop
        dsimp only
        split
        · rename_i left hw
          exact absurd ⟨left, hw⟩ hwait
        · rename_i hw
          exact absurd hw hmode
        · rfl

end Machine

namespace Engine

/-- **What a run up to a limit says when it comes back**: it has kept the limit, and below the limit nothing is left to
do. -/
theorem runLoop_count (limit rounds : Nat) {count n : Nat} {e e' : Engine} (hcount : count ≤ limit)
    (h : runLoop (some limit) rounds count e = some (.ok n, e')) :
    n ≤ limit ∧ (n < limit → e'.machine.mode ≠ .running ∧ ∀ left, e'.machine.mode ≠ .waiting (.ticks left)) := by
  induction rounds generalizing count e with
  | zero => cases h
  | succ rounds ih =>
    unfold runLoop at h
    split at h
    · exact ih hcount h
    · dsimp only at h
      split at h
      · rename_i hover
        cases h
        refine ⟨hcount, fun hbelow => ?_⟩
        have hfinished : e.finishIfDone.machine.mode = .finished := by
          rcases hover with hfinished | hlimit
          · exact hfinished
          · simp at hlimit
            omega
        simp [hfinished]
      · rename_i hgoes
        have hbelow : count < limit := by simpa using fun hle => hgoes (Or.inr hle)
        split at h
        · rename_i counted k _
          refine ih ?_ h
          have hle : counted.toNat ≤ 1 := Bool.toNat_le counted
          omega
        · cases h
    · rename_i hwait hrun
      cases h
      exact ⟨hcount, fun _ => ⟨hrun, hwait⟩⟩

/-- The rounds of a run from its start on. -/
def run (rounds : Nat) (limit : Option Nat) (e : Engine) : Option (Except Fault Nat × Engine) :=
  runLoop limit rounds 0 e

end Engine

/-! ## Reachable engines -/

/-- A call that runs no line. -/
def HostCall.quiet : HostCall → Bool
  | load .. | pause | resume | stop | deliverKey _ | provide .. | print _ => true
  | startWith _ budget => budget == 0
  | start _ | tick | run .. | execute _ => false

/-- A call that, when it succeeds, drops all that the script has made. -/
def HostCall.drops : HostCall → Bool
  | load .. | stop => true
  | _ => false

namespace Engine

/-- The engines that can be reached without extensions, by calls of the host and by rounds of its loops.  What drops
all that the script has made drops the target, too. -/
inductive Reachable : Engine → Prop
  | new (s : Settings) (search : Search) : Reachable ⟨.ofSettings s search, none⟩
  | call {e : Engine} {k : Machine} {answer : Except Fault Unit} (c : HostCall) : Reachable e → c.quiet = true →
      c.perform e.machine = some (answer, k) →
      Reachable ⟨k, if c.drops && answer.isOk then none else e.target⟩
  /-- A start with some budget, before the first round. -/
  | launch {e : Engine} {k : Machine} {answer : Except Fault Unit} (n : Nat) : Reachable e →
      Machine.launch (e.machine.withBudget n) = (answer, k) →
      Reachable ⟨k, if answer.isOk then none else e.target⟩
  | round {e : Engine} : Reachable e → e.machine.mode = .running → Reachable e.round
  | countDown {e : Engine} {left : Nat} : Reachable e → e.machine.mode = .waiting (.ticks left) →
      Reachable { e with machine := e.machine.countDown left }
  | execute {e : Engine} (text : String) : Reachable e → Reachable (e.execute text).2

/-- A running machine has a move to make. -/
theorem exists_advance {m : Machine} (hmode : m.mode = .running) : ∃ t, m.advance = some t := by
  rcases Machine.finishIfDone_cases hmode with ⟨hend, -⟩ | ⟨⟨line, hline⟩, -⟩
  · exact ⟨_, hend⟩
  · cases hcounts : m.counts line with
    | true => exact ⟨_, Machine.advance_statement hmode hline hcounts⟩
    | false => exact ⟨_, Machine.advance_pass hmode hline hcounts⟩

/-- **No target is pending** between rounds and between calls, and the machine is one that hosts reach. -/
theorem Reachable.settled {e : Engine} (h : e.Reachable) : e.target = none ∧ e.machine.Reachable := by
  induction h with
  | new s search => exact ⟨rfl, .new s search⟩
  | call c _ _ hperform ih => exact ⟨by simp [ih.1], ih.2.perform hperform⟩
  | launch n _ hlaunch ih =>
    refine ⟨by simp [ih.1], ?_⟩
    have hreach := (ih.2.withBudget n).launch
    rw [hlaunch] at hreach
    exact hreach
  | @round e _ hmode ih =>
    obtain ⟨m, target⟩ := e
    obtain ⟨rfl, hm⟩ : target = none ∧ m.Reachable := ih
    obtain ⟨t, ht⟩ := exists_advance hmode
    rw [round_eq hmode ht]
    exact ⟨rfl, hm.move ht⟩
  | @countDown e left _ hmode ih =>
    have hmove : e.machine.advance = some { last := e.machine.countDown left } := by
      simp only [Machine.advance, hmode]
    exact ⟨ih.1, ih.2.move hmove⟩
  | @execute e text _ ih =>
    obtain ⟨m, target⟩ := e
    obtain ⟨rfl, hm⟩ : target = none ∧ m.Reachable := ih
    have hreach := hm.execute text
    rw [execute_eq]
    dsimp only
    exact ⟨rfl, hreach⟩

theorem Reachable.finishIfDone {e : Engine} (h : e.Reachable) : e.finishIfDone.Reachable := by
  by_cases hdone : e.machine.mode = .running ∧ e.machine.script.lines.size ≤ e.machine.cursor
  · have hfinished : e.finishIfDone.machine.mode = .finished := by
      unfold Engine.finishIfDone Machine.finishIfDone
      rw [if_pos hdone]
    have hround := h.round hdone.1
    unfold Engine.round at hround
    rwa [if_pos hfinished] at hround
  · have hsame : e.finishIfDone = e := by
      unfold Engine.finishIfDone Machine.finishIfDone
      rw [if_neg hdone]
    rwa [hsame]

/-- A running engine that is not finished by a look at its end steps in its round. -/
theorem Reachable.step {e : Engine} (h : e.Reachable) (hmode : e.machine.mode = .running)
    (hgoes : e.finishIfDone.machine.mode ≠ .finished) :
    (∀ counted k, e.finishIfDone.step = (.ok counted, k) → k.Reachable) ∧
      ∀ f k, e.finishIfDone.step = (.error f, k) → (k.fail f).Reachable := by
  have hround := h.round hmode
  unfold Engine.round at hround
  dsimp only at hround
  rw [if_neg hgoes] at hround
  constructor
  · intro counted k hstep
    rwa [hstep] at hround
  · intro f k hstep
    rwa [hstep] at hround

/-- Ticks are made of rounds. -/
theorem Reachable.tickLoop {e e' : Engine} (h : e.Reachable) {rounds spent spent' : Nat} {answer : Except Fault Unit}
    (htick : tickLoop rounds spent e = some (answer, spent', e')) : e'.Reachable := by
  induction rounds generalizing spent e with
  | zero => cases htick
  | succ rounds ih =>
    unfold Engine.tickLoop at htick
    split at htick
    · rename_i hgoes
      dsimp only at htick
      split at htick
      · cases htick
        exact h.finishIfDone
      · rename_i hopen
        obtain ⟨hok, herror⟩ := h.step hgoes.2 hopen
        split at htick
        · rename_i counted k hstep
          exact ih (hok counted k hstep) htick
        · rename_i f k hstep
          cases htick
          exact herror f k hstep
    · cases htick
      exact h.finishIfDone

theorem Reachable.tick {e e' : Engine} (h : e.Reachable) {rounds spent : Nat} {answer : Except Fault Unit}
    (htick : tick rounds e = some (answer, spent, e')) : e'.Reachable := by
  unfold Engine.tick at htick
  split at htick
  · rename_i left hwait
    cases htick
    exact h.countDown hwait
  · exact h.tickLoop htick
  · cases htick
    exact h

/-- Runs are made of rounds. -/
theorem Reachable.runLoop {e e' : Engine} (h : e.Reachable) {limit : Option Nat} {rounds count : Nat}
    {answer : Except Fault Nat} (hrun : runLoop limit rounds count e = some (answer, e')) : e'.Reachable := by
  induction rounds generalizing count e with
  | zero => cases hrun
  | succ rounds ih =>
    unfold Engine.runLoop at hrun
    split at hrun
    · rename_i left hwait
      exact ih (h.countDown hwait) hrun
    · rename_i hmode
      dsimp only at hrun
      split at hrun
      · cases hrun
        exact h.finishIfDone
      · rename_i hopen
        obtain ⟨hok, herror⟩ := h.step hmode fun hfinished => hopen (Or.inl hfinished)
        split at hrun
        · rename_i counted k hstep
          exact ih (hok counted k hstep) hrun
        · rename_i f k hstep
          cases hrun
          exact herror f k hstep
    · cases hrun
      exact h

/-! ## Ticks and runs end -/

/-- **Ticks end within their budget, and limited runs end at their limit**, in every engine that a host without
extensions reaches:

* no target is pending, so a line without statement moves the cursor on by exactly one, and does not count;
* a tick comes back after a bounded number of rounds, in which it begins at most as many statements as the budget
  allows, and it answers what a tick of the machine answers;
* a run up to a limit comes back, and when it answers a number of statements, this number keeps the limit; below the
  limit the script neither runs on nor counts down. -/
theorem ticks_end_within_budget {e : Engine} (h : e.Reachable) :
    e.target = none ∧
    (∀ line, e.machine.script.lines[e.machine.cursor]? = some line → e.machine.counts line = false →
      e.step = (.ok false, ⟨e.machine.pass line, none⟩) ∧
        (e.machine.pass line).cursor = e.machine.cursor + 1) ∧
    (∀ rounds > e.machine.budget * (e.machine.script.lines.size + 1), ∃ answer spent e',
      e.tick rounds = some (answer, spent, e') ∧ spent ≤ e.machine.budget ∧ e'.Reachable ∧
        Machine.tick e.machine = (answer, e'.machine)) ∧
    ∀ limit, ∃ enough answer e', (∀ rounds ≥ enough, e.run rounds (some limit) = some (answer, e')) ∧
      e'.Reachable ∧ (∃ fuel, e.machine.run fuel (some limit) = some (answer, e'.machine)) ∧
      ∀ n, answer = .ok n → n ≤ limit ∧
        (n < limit → e'.machine.mode ≠ .running ∧ ∀ left, e'.machine.mode ≠ .waiting (.ticks left)) := by
  obtain ⟨hnone, hm⟩ := h.settled
  obtain ⟨m, target⟩ := e
  obtain rfl : target = none := hnone
  have hplain := hm.plain
  refine ⟨rfl, fun line hline hcounts => ⟨step_pass hline hcounts, rfl⟩, fun rounds hrounds => ?_, fun limit => ?_⟩
  · obtain ⟨spent, hspent, htick⟩ := hplain.engine_tick hrounds
    exact ⟨(Machine.tick m).1, spent, ⟨(Machine.tick m).2, none⟩, htick, hspent, h.tick htick, rfl⟩
  · obtain ⟨fuel, hfuel⟩ : ∃ fuel, (Machine.runFrom (some limit) fuel 0 m).isSome :=
      Machine.runFrom_of_limit limit hm.avoidsExtensions
    obtain ⟨⟨answer, k⟩, hrun⟩ := Option.isSome_iff_exists.mp hfuel
    obtain ⟨enough, hback⟩ := hplain.runLoop_eq fuel hrun
    have hlast := hback enough (Nat.le_refl enough)
    refine ⟨enough, answer, ⟨k, none⟩, hback, h.runLoop hlast, ⟨fuel, hrun⟩, ?_⟩
    rintro n rfl
    exact runLoop_count limit enough (Nat.zero_le limit) hlast

/-- A host that loads a script and starts it. -/
theorem reachable_started (text : String) : Reachable ⟨Machine.started text, none⟩ := by
  obtain ⟨loaded, k, hload⟩ : ∃ loaded k, Machine.load text "" (.ofSettings {} noPatterns) = (loaded, k) := ⟨_, _, rfl⟩
  obtain ⟨launched, l, hlaunch⟩ : ∃ launched l, Machine.launch (k.withBudget k.budget) = (launched, l) := ⟨_, _, rfl⟩
  have hloaded := (Reachable.new {} _).call (.load text "") rfl (congrArg some hload)
  have hstarted := hloaded.launch k.budget hlaunch
  simp only [ite_self] at hstarted
  have hlast : Machine.started text = l := by
    unfold Machine.started
    rw [hload]
    exact congrArg Prod.snd hlaunch
  rwa [hlast]

/-- An endless loop with a blank line, and behind it a function whose `end` never comes. -/
def endlessLoop : Machine := Machine.started "log a\n\njump ~-2\nfunction f x:any\nlog b"

/-- Its ticks end, and so do its limited runs. -/
theorem ticks_end_within_budget_of_loop :
    (∃ answer spent e', tick 100 ⟨endlessLoop, none⟩ = some (answer, spent, e') ∧ spent ≤ endlessLoop.budget ∧
      Machine.tick endlessLoop = (answer, e'.machine)) ∧
    ∃ rounds answer e', run rounds (some 7) ⟨endlessLoop, none⟩ = some (answer, e') ∧
      ∀ n, answer = .ok n → n ≤ 7 := by
  have hbudget : 100 > endlessLoop.budget * (endlessLoop.script.lines.size + 1) := by decide +kernel
  obtain ⟨-, -, htick, hrun⟩ := ticks_end_within_budget (reachable_started _ : Reachable ⟨endlessLoop, none⟩)
  obtain ⟨answer, spent, e', hends, hspent, -, hsame⟩ := htick 100 hbudget
  obtain ⟨enough, answer', e'', hback, -, -, hcount⟩ := hrun 7
  exact ⟨⟨answer, spent, e', hends, hspent, hsame⟩, enough, answer', e'', hback enough (Nat.le_refl enough),
    fun n hn => (hcount n hn).1⟩

end Engine

end LineScript
