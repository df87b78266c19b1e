/-
# The trajectory of a run

A run moves line by line: `Machine.advance` is one move, and `Machine.stretch n` is what the first `n` moves
execute, where they fail and where they lead.  It says nothing of ticks, budgets and limits, so it is the one
course that every way of driving a run has to follow.

* `stretch_add`: stretches follow one another;
* `passOver_reaches`, `round_reaches`: passing over lines, and going on to the next statement and running it,
  are stretches of the trajectory;
* `stretch_withBudget`: another budget for each tick gives the same trajectory;
* `avoidsExtensions_of_keywords`: when no extension adds a keyword, no run meets one.
-/
import LineScript.Proofs.Machine.Agreement
import Mathlib.Logic.Equiv.Basic
import Mathlib.Tactic.SplitIfs

namespace LineScript

open Act

/-! ## Stretches of a run -/

/-- What a part of a run does. -/
structure Stretch where
  /-- The lines of the script that it executes, passed over or run, in order. -/
  lines : List Nat := []
  /-- The faults that end it; the host gets them as answers. -/
  faults : List Fault := []
  /-- The machine that it leads to. -/
  last : Machine

namespace Stretch

/-- One stretch after another. -/
def andThen (t u : Stretch) : Stretch := ⟨t.lines ++ u.lines, t.faults ++ u.faults, u.last⟩

@[simp] theorem andThen_last (t u : Stretch) : (t.andThen u).last = u.last := rfl

@[simp] theorem andThen_lines (t u : Stretch) : (t.andThen u).lines = t.lines ++ u.lines := rfl

@[simp] theorem andThen_faults (t u : Stretch) : (t.andThen u).faults = t.faults ++ u.faults := rfl

/-- A stretch in which nothing happens is a unit on the left. -/
@[simp] theorem nothing_andThen (m : Machine) (t : Stretch) :
    (⟨[], [], m⟩ : Stretch).andThen t = t := rfl

/-- A stretch in which nothing happens is a unit on the right. -/
@[simp] theorem andThen_nothing (t : Stretch) : t.andThen ⟨[], [], t.last⟩ = t := by
  simp [andThen]

theorem andThen_assoc (t u v : Stretch) :
    (t.andThen u).andThen v = t.andThen (u.andThen v) := by
  simp [andThen, List.append_assoc]

end Stretch

/-- The faults among an answer: one or none. -/
def faults {α : Type} : Except Fault α → List Fault
  | .ok _ => []
  | .error f => [f]

@[simp] theorem faults_ok {α : Type} (x : α) : faults (.ok x) = [] := rfl

@[simp] theorem faults_error {α : Type} (f : Fault) : faults (.error f : Except Fault α) = [f] := rfl

namespace Machine

/-! ## Moves -/

/-- One move of a run: a tick of a wait, the end of the script, or one line of it.  None when the machine is
at rest. -/
def advance (m : Machine) : Option Stretch :=
  match m.mode with
  | .waiting (.ticks left) => some { last := m.countDown left }
  | .running =>
    match m.script.lines[m.cursor]? with
    | none => some { last := { m with mode := .finished } }
    | some line =>
      if m.counts line then
        let result := guarded (runCursorLine (invoke m.nesting)) m
        some ⟨[m.cursor], faults result.1, result.2⟩
      else some ⟨[m.cursor], [], m.pass line⟩
  | _ => none

/-- The first `n` moves of a run, or all of them when there are no more. -/
def stretch : Nat → Machine → Stretch
  | 0, m => ⟨[], [], m⟩
  | n + 1, m =>
    match m.advance with
    | none => ⟨[], [], m⟩
    | some t => t.andThen (stretch n t.last)

@[simp] theorem stretch_zero (m : Machine) : m.stretch 0 = ⟨[], [], m⟩ := rfl

theorem stretch_succ {m : Machine} {t : Stretch} (h : m.advance = some t) (n : Nat) :
    m.stretch (n + 1) = t.andThen (t.last.stretch n) := by
  rw [stretch, h]

/-- At rest nothing happens any more. -/
theorem stretch_of_rest {m : Machine} (h : m.advance = none) (n : Nat) :
    m.stretch n = ⟨[], [], m⟩ := by
  cases n with
  | zero => rfl
  | succ n => rw [stretch, h]

/-- **Stretches follow one another.** -/
theorem stretch_add (m : Machine) (a b : Nat) :
    m.stretch (a + b) = (m.stretch a).andThen ((m.stretch a).last.stretch b) := by
  induction a generalizing m with
  | zero => simp
  | succ a ih =>
    rw [Nat.succ_add]
    cases h : m.advance with
    | none => simp [stretch_of_rest h]
    | some t => rw [stretch_succ h, stretch_succ h, ih, Stretch.andThen_last, Stretch.andThen_assoc]

theorem stretch_one {m : Machine} {t : Stretch} (h : m.advance = some t) : m.stretch 1 = t := by
  rw [stretch_succ h, stretch_zero, Stretch.andThen_nothing]

/-- **What every move keeps, stretches keep.** -/
theorem stretch_keeps {P : Machine → Prop} (hmove : ∀ {m : Machine} {t : Stretch}, P m → m.advance = some t → P t.last)
    {m : Machine} (h : P m) (n : Nat) : P (m.stretch n).last := by
  induction n generalizing m with
  | zero => exact h
  | succ n ih =>
    cases hadvance : m.advance with
    | none =>
      rw [stretch_of_rest hadvance]
      exact h
    | some t =>
      rw [stretch_succ hadvance]
      exact ih (hmove h hadvance)

/-- A stretch that is part of the trajectory, and how many moves it takes at least. -/
def Reaches (m : Machine) (least : Nat) (t : Stretch) : Prop := ∃ n, least ≤ n ∧ m.stretch n = t

theorem Reaches.refl (m : Machine) : m.Reaches 0 ⟨[], [], m⟩ := ⟨0, Nat.le_refl 0, rfl⟩

/-- At rest any number of moves is taken. -/
theorem Reaches.rest {m : Machine} (h : m.advance = none) (n : Nat) : m.Reaches n ⟨[], [], m⟩ :=
  ⟨n, Nat.le_refl n, stretch_of_rest h n⟩

theorem Reaches.mono {m : Machine} {a b : Nat} {t : Stretch} (hab : a ≤ b) (h : m.Reaches b t) :
    m.Reaches a t := by
  obtain ⟨n, hn, ht⟩ := h
  exact ⟨n, Nat.le_trans hab hn, ht⟩

theorem Reaches.move {m : Machine} {t : Stretch} (h : m.advance = some t) : m.Reaches 1 t :=
  ⟨1, Nat.le_refl 1, stretch_one h⟩

theorem Reaches.trans {m : Machine} {a b : Nat} {t u : Stretch} (ht : m.Reaches a t)
    (hu : t.last.Reaches b u) : m.Reaches (a + b) (t.andThen u) := by
  obtain ⟨n, hn, rfl⟩ := ht
  obtain ⟨k, hk, rfl⟩ := hu
  exact ⟨n + k, Nat.add_le_add hn hk, m.stretch_add n k⟩

/-! ## Runs that meet no keyword of an extension -/

/-- The line under the cursor runs no keyword of an extension: it does the same whatever those would do. -/
def LineAvoidsExtensions (m : Machine) : Prop :=
  ∀ inv inv' : Invoke, runCursorLine inv m = runCursorLine inv' m

/-- No statement of the run from here runs a keyword of an extension. -/
def AvoidsExtensions (m : Machine) : Prop :=
  ∀ (n : Nat) (line : String), (m.stretch n).last.mode = .running →
    (m.stretch n).last.script.lines[(m.stretch n).last.cursor]? = some line →
    (m.stretch n).last.counts line → (m.stretch n).last.LineAvoidsExtensions

theorem AvoidsExtensions.line {m : Machine} (h : m.AvoidsExtensions) {line : String}
    (hmode : m.mode = .running) (hline : m.script.lines[m.cursor]? = some line)
    (hcounts : m.counts line) : m.LineAvoidsExtensions :=
  h 0 line hmode hline hcounts

/-- What is avoided from here is avoided later on. -/
theorem AvoidsExtensions.later {m : Machine} (h : m.AvoidsExtensions) {least : Nat} {t : Stretch}
    (ht : m.Reaches least t) : t.last.AvoidsExtensions := by
  obtain ⟨k, -, rfl⟩ := ht
  intro n line
  have hlast : ((m.stretch k).last.stretch n).last = (m.stretch (k + n)).last := by
    rw [stretch_add, Stretch.andThen_last]
  rw [hlast]
  exact h (k + n) line

/-! ## Going on to the next statement -/

/-- The lines that `passOver` passes over. -/
def passedLines : (bound : Nat) → Machine → List Nat
  | 0, _ => []
  | bound + 1, m =>
    match m.script.lines[m.cursor]? with
    | none => []
    | some line => if m.counts line then [] else m.cursor :: passedLines bound (m.pass line)

/-- The lines before the next statement. -/
def settledLines (m : Machine) : List Nat := passedLines (m.script.lines.size - m.cursor) m

/-- A line without statement is passed over by one move. -/
theorem advance_pass {m : Machine} {line : String} (hmode : m.mode = .running)
    (hline : m.script.lines[m.cursor]? = some line) (hcounts : m.counts line = false) :
    m.advance = some ⟨[m.cursor], [], m.pass line⟩ := by
  simp [advance, hmode, hline, hcounts]

/-- A statement is run by one move. -/
theorem advance_statement {m : Machine} {line : String} (hmode : m.mode = .running)
    (hline : m.script.lines[m.cursor]? = some line) (hcounts : m.counts line = true) :
    m.advance = some ⟨[m.cursor], faults (guarded (runCursorLine (invoke m.nesting)) m).1,
      (guarded (runCursorLine (invoke m.nesting)) m).2⟩ := by
  simp [advance, hmode, hline, hcounts]

/-- **Passing over lines is a stretch of the trajectory**, at whose end the script is still running. -/
theorem passOver_reaches (bound : Nat) {m : Machine} (hmode : m.mode = .running) :
    m.Reaches 0 ⟨passedLines bound m, [], passOver bound m⟩ ∧
      (passOver bound m).mode = .running := by
  induction bound generalizing m with
  | zero => exact ⟨Reaches.refl m, hmode⟩
  | succ bound ih =>
    rw [passOver, passedLines]
    cases hline : m.script.lines[m.cursor]? with
    | none => exact ⟨Reaches.refl m, hmode⟩
    | some line =>
      dsimp only
      split_ifs with hcounts
      · exact ⟨Reaches.refl m, hmode⟩
      · have hmove := advance_pass hmode hline (Bool.eq_false_iff.mpr hcounts)
        obtain ⟨hrest, hlast⟩ := ih (m := m.pass line) hmode
        exact ⟨((Reaches.move hmove).trans hrest).mono (Nat.zero_le _), hlast⟩

/-- Enough lines passed over lead behind the script or to a statement. -/
theorem passOver_stops (bound : Nat) (m : Machine) (h : m.script.lines.size ≤ m.cursor + bound) :
    (passOver bound m).script.lines[(passOver bound m).cursor]? = none ∨
      ∃ line, (passOver bound m).script.lines[(passOver bound m).cursor]? = some line ∧
        (passOver bound m).counts line = true := by
  induction bound generalizing m with
  | zero => exact Or.inl (Array.getElem?_eq_none (by simpa [passOver] using h))
  | succ bound ih =>
    unfold passOver
    split
    · rename_i hline
      exact Or.inl hline
    · rename_i line hline
      split
      · rename_i hcounts
        exact Or.inr ⟨line, hline, hcounts⟩
      · refine ih (m.pass line) ?_
        show m.script.lines.size ≤ m.cursor + 1 + bound
        omega

/-- A running script either has a line under the cursor, or its end is the next move. -/
theorem finishIfDone_cases {m : Machine} (hmode : m.mode = .running) :
    (m.advance = some { last := m.finishIfDone } ∧ m.finishIfDone.mode = .finished) ∨
      (∃ line, m.script.lines[m.cursor]? = some line) ∧ m.finishIfDone = m := by
  unfold finishIfDone
  by_cases hsize : m.script.lines.size ≤ m.cursor
  · have hline : m.script.lines[m.cursor]? = none := Array.getElem?_eq_none hsize
    exact Or.inl (by simp [advance, hmode, hsize])
  · have hline : m.script.lines[m.cursor]? = some m.script.lines[m.cursor] :=
      Array.getElem?_eq_getElem (Nat.lt_of_not_le hsize)
    exact Or.inr ⟨⟨_, hline⟩, by simp [hsize]⟩

/-- A machine that is neither running nor counting down is at rest. -/
theorem advance_eq_none {m : Machine} (hrun : m.mode ≠ .running)
    (hwait : ∀ left, m.mode ≠ .waiting (.ticks left)) : m.advance = none := by
  unfold advance
  split
  · rename_i left h
    exact absurd h (hwait left)
  · rename_i h
    exact absurd h hrun
  · rfl

theorem advance_of_finished {m : Machine} (h : m.mode = .finished) : m.advance = none :=
  advance_eq_none (by simp [h]) (by simp [h])

/-- **One round of a driver**: from a running script it goes on to the next statement and runs it, or it
finds the end of the script.  Both are stretches of the trajectory, of at least one move. -/
theorem round_reaches {m : Machine} (inv : Invoke) (hm : m.AvoidsExtensions)
    (hmode : m.mode = .running) :
    (m.settle.finishIfDone.mode = .finished ∧
        m.Reaches 1 ⟨m.settledLines, [], m.settle.finishIfDone⟩) ∨
      (m.settle.finishIfDone.mode = .running ∧
        m.Reaches 1 ⟨m.settledLines ++ [m.settle.finishIfDone.cursor],
          faults (guarded (runCursorLine inv) m.settle.finishIfDone).1,
          (guarded (runCursorLine inv) m.settle.finishIfDone).2⟩) := by
  have hbound : m.script.lines.size ≤ m.cursor + (m.script.lines.size - m.cursor) := by omega
  obtain ⟨hreach, hsettled⟩ := passOver_reaches (m.script.lines.size - m.cursor) hmode
  have hstop := passOver_stops _ m hbound
  change m.Reaches 0 ⟨m.settledLines, [], m.settle⟩ at hreach
  change m.settle.mode = .running at hsettled
  change m.settle.script.lines[m.settle.cursor]? = none ∨ ∃ line,
    m.settle.script.lines[m.settle.cursor]? = some line ∧ m.settle.counts line = true at hstop
  rcases finishIfDone_cases hsettled with ⟨hend, hfinished⟩ | ⟨⟨line, hline⟩, hsame⟩
  · left
    have hmove := hreach.trans (Reaches.move hend)
    simp only [Stretch.andThen, List.append_nil] at hmove
    exact ⟨hfinished, hmove⟩
  · right
    rw [hsame]
    obtain ⟨line', hline', hcounts⟩ : ∃ line,
        m.settle.script.lines[m.settle.cursor]? = some line ∧ m.settle.counts line = true := by
      rcases hstop with hnone | hsome
      · rw [hline] at hnone
        cases hnone
      · exact hsome
    have havoid := (hm.later hreach).line hsettled hline' hcounts
    have hinvoke : guarded (runCursorLine (invoke m.settle.nesting)) m.settle =
        guarded (runCursorLine inv) m.settle := by
      unfold guarded
      rw [tryCatch_apply, tryCatch_apply, havoid _ inv]
    have hmove := advance_statement hsettled hline' hcounts
    rw [hinvoke] at hmove
    have hround := hreach.trans (Reaches.move hmove)
    simp only [Stretch.andThen, List.nil_append] at hround
    exact ⟨hsettled, hround⟩

/-! ## Another budget -/

/-- The same machine with another budget of statements for each tick. -/
def withBudget (n : Nat) (m : Machine) : Machine := { m with budget := n }

/-- What runs no keyword of an extension leaves the budget alone. -/
theorem LineAvoidsExtensions.budget_eq {m : Machine} (hm : m.LineAvoidsExtensions) (inv : Invoke) :
    (runCursorLine inv m).2.budget = m.budget := by
  let quiet : Invoke := fun _ _ => pure ()
  have hagree : Agree (fun s s' => s' = mapBudget (fun _ => m.budget) s) (runCursorLine quiet)
      (runCursorLine quiet) :=
    (congruence_mapBudget fun _ => m.budget).agree_runCursorLine fun _ _ _ _ _ => agree_pure _
  have hsame := (hagree m m rfl).2
  rw [hm inv quiet, hsame]
  rfl

/-- A line that runs no keyword of an extension does not look at the budget. -/
theorem LineAvoidsExtensions.withBudget_apply {m : Machine} (hm : m.LineAvoidsExtensions)
    (inv : Invoke) (n : Nat) :
    runCursorLine inv (m.withBudget n) =
      ((runCursorLine inv m).1, (runCursorLine inv m).2.withBudget n) := by
  -- Swapping two budgets is undone by swapping them again, so that keywords of extensions can be made to
  -- agree along it, whatever they do.
  let swap : Machine → Machine := mapBudget (Equiv.swap m.budget n)
  have hswap : ∀ s, swap (swap s) = s := by
    intro s
    simp [swap, mapBudget]
  let inv' : Invoke := fun owner i s => ((inv owner i (swap s)).1, swap (inv owner i (swap s)).2)
  have hagree : Agree (fun s s' => s' = swap s) (runCursorLine inv') (runCursorLine inv) := by
    refine (congruence_mapBudget (Equiv.swap m.budget n)).agree_runCursorLine ?_
    rintro _ _ - _ owned - i s _ rfl
    exact ⟨rfl, (hswap _).symm⟩
  have hstart : m.withBudget n = swap m := by simp [swap, mapBudget, withBudget]
  obtain ⟨hanswer, hlast⟩ := hagree m (swap m) rfl
  rw [hm inv' inv] at hanswer hlast
  have hend : swap (runCursorLine inv m).2 = (runCursorLine inv m).2.withBudget n := by
    have hbudget := hm.budget_eq inv
    simp [swap, mapBudget, withBudget, hbudget]
  rw [hstart]
  exact Prod.ext hanswer.symm (hlast.trans hend)

/-- With another budget a line avoids extensions just as well. -/
theorem LineAvoidsExtensions.withBudget {m : Machine} (hm : m.LineAvoidsExtensions) (n : Nat) :
    (m.withBudget n).LineAvoidsExtensions := by
  intro inv inv'
  rw [hm.withBudget_apply, hm.withBudget_apply, hm inv inv']

theorem fail_withBudget (f : Fault) (m : Machine) (n : Nat) :
    fail f (m.withBudget n) = (m.fail f).withBudget n :=
  (congruence_mapBudget fun _ => n).fail f rfl

/-- A fault that ends the run marks the machine as failed. -/
theorem guarded_apply {α : Type} (a : Act α) (m : Machine) :
    guarded a m = ((a m).1, match (a m).1 with
      | .ok _ => (a m).2
      | .error f => (a m).2.fail f) := by
  unfold guarded
  rw [tryCatch_apply]
  rcases h : a m with ⟨f | x, s⟩ <;> rfl

/-- A fault of a guarded step has led where the step has, and the run is over. -/
theorem ends_guarded {α : Type} {a : Act α} {m : Machine} {Q : α → Machine → Prop}
    {E : Fault → Machine → Prop} (h : Ends a m Q E) :
    Ends (guarded a) m Q fun f k => ∃ l, E f l ∧ k = l.fail f := by
  unfold Ends at h ⊢
  rw [guarded_apply]
  rcases ha : a m with ⟨f | x, l⟩
  · rw [ha] at h
    exact ⟨l, h, rfl⟩
  · rw [ha] at h
    exact h

theorem LineAvoidsExtensions.guarded_withBudget {m : Machine} (hm : m.LineAvoidsExtensions)
    (inv : Invoke) (n : Nat) :
    guarded (runCursorLine inv) (m.withBudget n) =
      ((guarded (runCursorLine inv) m).1, (guarded (runCursorLine inv) m).2.withBudget n) := by
  rw [guarded_apply, guarded_apply, hm.withBudget_apply]
  rcases runCursorLine inv m with ⟨f | x, s⟩
  · exact Prod.ext rfl (fail_withBudget f s n)
  · rfl

end Machine

/-- The same stretch of a machine with another budget. -/
def Stretch.withBudget (n : Nat) (t : Stretch) : Stretch := { t with last := t.last.withBudget n }

theorem Stretch.withBudget_andThen (n : Nat) (t u : Stretch) :
    (t.andThen u).withBudget n = (t.withBudget n).andThen (u.withBudget n) := rfl

namespace Machine

/-- A move with another budget is the same move. -/
theorem advance_withBudget {m : Machine} (hm : m.AvoidsExtensions) (n : Nat) :
    (m.withBudget n).advance = m.advance.map (Stretch.withBudget n) := by
  have hfields : (m.withBudget n).mode = m.mode ∧
      (m.withBudget n).script.lines[(m.withBudget n).cursor]? = m.script.lines[m.cursor]? :=
    ⟨rfl, rfl⟩
  cases hmode : m.mode with
  | running =>
    cases hline : m.script.lines[m.cursor]? with
    | none =>
      simp only [advance, hfields.1, hfields.2, hmode, hline]
      rfl
    | some line =>
      cases hcounts : m.counts line with
      | false =>
        rw [advance_pass hmode hline hcounts,
          advance_pass (hfields.1.trans hmode) (hfields.2.trans hline) hcounts]
        rfl
      | true =>
        have hsame := (hm.line hmode hline hcounts).guarded_withBudget (invoke m.nesting) n
        rw [advance_statement hmode hline hcounts,
          advance_statement (hfields.1.trans hmode) (hfields.2.trans hline) hcounts]
        show some (Stretch.mk [m.cursor]
          (faults (guarded (runCursorLine (invoke m.nesting)) (m.withBudget n)).1)
          (guarded (runCursorLine (invoke m.nesting)) (m.withBudget n)).2) = _
        rw [hsame]
        rfl
  | waiting w =>
    cases w with
    | ticks left =>
      simp only [advance, hfields.1, hmode]
      rfl
    | key name => simp only [advance, hfields.1, hmode, Option.map_none]
  | idle | paused | finished | failed => simp only [advance, hfields.1, hmode, Option.map_none]

/-- **The budget does not bend the trajectory.** -/
theorem stretch_withBudget {m : Machine} (hm : m.AvoidsExtensions) (n k : Nat) :
    (m.withBudget n).stretch k = (m.stretch k).withBudget n := by
  induction k generalizing m with
  | zero => rfl
  | succ k ih =>
    have hmove := advance_withBudget hm n
    cases h : m.advance with
    | none =>
      rw [h] at hmove
      rw [stretch_of_rest h, stretch_of_rest hmove]
      rfl
    | some t =>
      rw [h] at hmove
      rw [stretch_succ h, stretch_succ hmove, Stretch.withBudget_andThen,
        ← ih (hm.later (Reaches.move h))]
      rfl

/-- With another budget a run avoids extensions just as well. -/
theorem AvoidsExtensions.withBudget {m : Machine} (hm : m.AvoidsExtensions) (n : Nat) :
    (m.withBudget n).AvoidsExtensions := by
  intro k line
  rw [stretch_withBudget hm]
  intro hmode hline hcounts
  exact (hm k line hmode hline hcounts).withBudget n

/-! ## Machines without keywords of extensions -/

/-- When no extension adds a keyword, a line cannot run one, and the registry stays as it is. -/
theorem runCursorLine_registry {m : Machine} (hm : m.registry.keywords.entries = [])
    (inv inv' : Invoke) :
    runCursorLine inv m = runCursorLine inv' m ∧
      (runCursorLine inv m).2.registry = m.registry := by
  have hagree : Agree (fun s s' => s' = s ∧ s.registry = m.registry) (runCursorLine inv)
      (runCursorLine inv') := by
    refine (congruence_registry m.registry).agree_runCursorLine ?_
    rintro s _ ⟨-, hs⟩ keyword owned hfound
    rw [hs, Roster.find?, hm] at hfound
    cases hfound
  obtain ⟨hanswer, hlast, hregistry⟩ := hagree m m ⟨rfl, rfl⟩
  exact ⟨Prod.ext hanswer hlast.symm, hregistry⟩

/-- Going on in a script leaves the registry alone as long as no extension adds a keyword. -/
theorem advance_registry {m : Machine} (hm : m.registry.keywords.entries = []) {t : Stretch}
    (h : m.advance = some t) : t.last.registry = m.registry := by
  unfold advance at h
  split at h
  · cases h
    rfl
  · split at h
    · cases h
      rfl
    · split_ifs at h with hcounts
      · cases h
        have hline := (runCursorLine_registry hm (invoke m.nesting) (invoke m.nesting)).2
        show (guarded (runCursorLine (invoke m.nesting)) m).2.registry = m.registry
        rw [guarded_apply]
        rcases hrun : runCursorLine (invoke m.nesting) m with ⟨f | x, s⟩
        · rw [hrun] at hline
          have hsame : s = s ∧ s.registry = m.registry := ⟨rfl, hline⟩
          exact ((congruence_registry m.registry).fail f hsame).2
        · rw [hrun] at hline
          exact hline
      · cases h
        rfl
  · cases h

theorem stretch_registry {m : Machine} (hm : m.registry.keywords.entries = []) (n : Nat) :
    (m.stretch n).last.registry = m.registry := by
  induction n generalizing m with
  | zero => rfl
  | succ n ih =>
    cases h : m.advance with
    | none => rw [stretch_of_rest h]
    | some t =>
      have hmove := advance_registry hm h
      rw [stretch_succ h, Stretch.andThen_last, ih (by rw [hmove, hm]), hmove]

/-- **When no extension adds a keyword, no run meets one.** -/
theorem avoidsExtensions_of_keywords {m : Machine} (hm : m.registry.keywords.entries = []) :
    m.AvoidsExtensions := by
  intro n line _ _ _ inv inv'
  have hlast := stretch_registry hm n
  exact (runCursorLine_registry (by rw [hlast, hm]) inv inv').1

end Machine

end LineScript
