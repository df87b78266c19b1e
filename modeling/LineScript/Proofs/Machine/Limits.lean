/-
# Limits of runs add up

A run up to a number of statements looks at its limit only when a line is under the cursor of a running script: behind
the test for the end of the script, and behind the countdowns, which pass at once.  What a round does besides is the
same for every limit (`Machine.round`), so a run up to `a` statements is the beginning of one up to `a + b` statements,
and the rest of that is a run up to `b` statements from where the beginning stops.

* `outcome_succ`: a round of a run, the test of the limit and what is done being apart;
* `outcome_shift`: a run that has counted some statements before;
* `outcome_add`: two runs, one after the other, by induction on the rounds of the first;
* `limits_add`: the main statement.
-/
import LineScript.Proofs.Machine.Budget

namespace LineScript

open Act

namespace Machine

/-! ## Rounds -/

/-- What a round of a run comes to when no limit stops it. -/
inductive Round
  /-- Nothing is left to do, behind some lines that are passed over. -/
  | stopped (lines : List Nat) (k : Machine)
  /-- A countdown goes on by one tick. -/
  | counted (k : Machine)
  /-- A statement has been run, the last of some lines. -/
  | ran (lines : List Nat) (answer : Except Fault Unit) (k : Machine)

/-- What the next round of a run does when no limit stops it. -/
def round (m : Machine) : Round :=
  match m.mode with
  | .waiting (.ticks left) => .counted (m.countDown left)
  | .running =>
    let s := m.settle.finishIfDone
    if s.mode = .running then
      let result := guarded (runCursorLine (invoke s.nesting)) s
      .ran (m.settledLines ++ [s.cursor]) result.1 result.2
    else .stopped m.settledLines s
  | _ => .stopped [] m

/-- The script is running, and there is a line under the cursor. -/
def AtLine (m : Machine) : Prop := m.mode = .running ∧ m.cursor < m.script.lines.size

instance (m : Machine) : Decidable m.AtLine := inferInstanceAs (Decidable (_ ∧ _))

/-- What a run comes back with: the lines that it has executed, its answer, and where it leads. -/
abbrev Outcome := List Nat × Except Fault Nat × Machine

/-- The outcome of a run that has counted some statements before; none when the fuel is not enough. -/
def outcome (limit : Option Nat) (fuel count : Nat) (m : Machine) : Option Outcome :=
  (runFrom limit fuel count m).map fun (answer, k) => (runLines limit fuel count m, answer, k)

/-- The outcome of a run that does what its next round does, and then goes on. -/
def Round.outcome (limit : Option Nat) (fuel count : Nat) : Round → Option Outcome
  | .stopped lines k => some (lines, .ok count, k)
  | .counted k => Machine.outcome limit fuel count k
  | .ran lines (.ok ()) k =>
    (Machine.outcome limit fuel (count + 1) k).map fun (later, answer, l) => (lines ++ later, answer, l)
  | .ran lines (.error f) k => some (lines, .error f, k)

variable {limit : Option Nat} {fuel count : Nat} {m k : Machine} {answer : Except Fault Nat} {lines : List Nat}

theorem outcome_of_runFrom (h : runFrom limit fuel count m = some (answer, k)) :
    outcome limit fuel count m = some (runLines limit fuel count m, answer, k) := by
  rw [outcome, h]
  rfl

theorem runFrom_of_outcome (h : outcome limit fuel count m = some (lines, answer, k)) :
    runFrom limit fuel count m = some (answer, k) ∧ runLines limit fuel count m = lines := by
  obtain ⟨⟨answer', k'⟩, hrun, hsame⟩ := Option.map_eq_some_iff.mp h
  cases hsame
  exact ⟨hrun, rfl⟩

/-- Without a line under the cursor nothing is passed over. -/
theorem settle_of_end (h : m.script.lines.size ≤ m.cursor) : m.settle = m ∧ m.settledLines = [] := by
  have hnone : m.script.lines.size - m.cursor = 0 := Nat.sub_eq_zero_of_le h
  constructor
  · rw [settle, hnone]
    rfl
  · rw [settledLines, hnone]
    rfl

/-- A running script without a line under the cursor is over. -/
theorem finishIfDone_of_end (hrun : m.mode = .running) (h : m.script.lines.size ≤ m.cursor) :
    m.finishIfDone.mode ≠ .running := by
  rw [finishIfDone, if_pos ⟨hrun, h⟩]
  intro hmode
  cases hmode

/-- A running script whose limit is not reached runs its next statement, or it ends. -/
theorem outcome_of_running (hline : m.AtLine) (hlimit : ¬ limit.any (· ≤ count) = true) (fuel : Nat) :
    outcome limit (fuel + 1) count m = m.round.outcome limit fuel count := by
  obtain ⟨hrun, hinside⟩ := hline
  have hstays : m.finishIfDone = m := if_neg fun h => Nat.not_le.mpr hinside h.2
  have hgoes : ¬ (m.mode ≠ .running ∨ limit.any (· ≤ count) = true) := by simp [hrun, hlimit]
  unfold outcome
  rw [runFrom, runLines, round, hrun]
  dsimp only
  rw [hstays, if_neg hgoes, if_neg hgoes]
  by_cases hsettled : m.settle.finishIfDone.mode = .running
  · rw [if_neg (not_not.mpr hsettled), if_neg (not_not.mpr hsettled), if_pos hsettled]
    rcases guarded (runCursorLine (invoke m.settle.finishIfDone.nesting)) m.settle.finishIfDone with ⟨f | x, l⟩
    · rfl
    · rw [Round.outcome, outcome, Option.map_map]
      refine congrArg (fun g => (runFrom limit fuel (count + 1) l).map g) (funext fun r => ?_)
      simp [Except.isOk, Except.toBool]
  · rw [if_pos hsettled, if_pos hsettled, if_neg hsettled]
    rfl

/-- **A round of a run**: at a line the limit may end it, and else it does what its round does. -/
theorem outcome_succ (limit : Option Nat) (fuel count : Nat) (m : Machine) :
    outcome limit (fuel + 1) count m =
      if m.AtLine ∧ limit.any (· ≤ count) = true then some ([], .ok count, m)
      else m.round.outcome limit fuel count := by
  by_cases hline : m.AtLine
  · by_cases hlimit : limit.any (· ≤ count) = true
    · have hstays : m.finishIfDone = m := if_neg fun h => Nat.not_le.mpr hline.2 h.2
      rw [if_pos ⟨hline, hlimit⟩, outcome, runFrom, runLines, hline.1]
      dsimp only
      rw [hstays, if_pos (Or.inr hlimit), if_pos (Or.inr hlimit)]
      rfl
    · rw [if_neg fun h => hlimit h.2, outcome_of_running hline hlimit]
  · rw [if_neg fun h => hline h.1]
    by_cases hrun : m.mode = .running
    · -- The script has no more lines.
      have hend : m.script.lines.size ≤ m.cursor := Nat.not_lt.mp fun h => hline ⟨hrun, h⟩
      have hfinished := finishIfDone_of_end hrun hend
      obtain ⟨hsettle, hlines⟩ := settle_of_end hend
      rw [outcome, runFrom, runLines, round, hrun]
      dsimp only
      rw [hsettle, hlines, if_pos (Or.inl hfinished), if_pos (Or.inl hfinished), if_neg hfinished]
      rfl
    · by_cases hwait : ∃ left, m.mode = .waiting (.ticks left)
      · obtain ⟨left, hleft⟩ := hwait
        rw [outcome, runFrom, runLines, round, hleft]
        rfl
      · obtain ⟨hstill, hlines⟩ := runFrom_of_rest limit fuel count hrun fun left hleft => hwait ⟨left, hleft⟩
        have hround : m.round = .stopped [] m := by
          unfold round
          split
          · rename_i left hleft
            exact absurd ⟨left, hleft⟩ hwait
          · rename_i hmode
            exact absurd hmode hrun
          · rfl
        rw [outcome_of_runFrom hstill, hlines, hround]
        rfl

/-- A statement is run only from a line on. -/
theorem atLine_of_ran {result : Except Fault Unit} (h : m.round = .ran lines result k) : m.AtLine := by
  unfold round at h
  split at h
  · cases h
  · rename_i hrun
    refine ⟨hrun, Nat.not_le.mp fun hend => ?_⟩
    dsimp only at h
    rw [(settle_of_end hend).1, if_neg (finishIfDone_of_end hrun hend)] at h
    cases h
  · cases h

/-- A run that has nothing left to do stays where it is, whatever its limit. -/
theorem outcome_of_stopped (h : m.round = .stopped lines k) (limit : Option Nat) (fuel count : Nat) :
    outcome limit (fuel + 1) count k = some ([], .ok count, k) := by
  have hrest : k.mode ≠ .running ∧ ∀ left, k.mode ≠ .waiting (.ticks left) := by
    unfold round at h
    split at h
    · cases h
    · rename_i hmode
      dsimp only at h
      split_ifs at h with hsettled
      cases h
      rcases settle_cases hmode with hfinished | ⟨hsame, hgoes, -⟩
      · rw [hfinished]
        exact ⟨nofun, nofun⟩
      · exact absurd (by rw [hsame]; exact hgoes) hsettled
    · rename_i hwait hrun
      cases h
      exact ⟨hrun, hwait⟩
  obtain ⟨hstill, hlines⟩ := runFrom_of_rest limit fuel count hrest.1 hrest.2
  rw [outcome_of_runFrom hstill, hlines]

/-- More fuel changes nothing. -/
theorem outcome_mono {r : Outcome} (h : outcome limit fuel count m = some r) {more : Nat} (hmore : fuel ≤ more) :
    outcome limit more count m = some r := by
  induction fuel generalizing count m r more with
  | zero => cases h
  | succ fuel ih =>
    obtain ⟨more, rfl⟩ : ∃ n, more = n + 1 := ⟨more - 1, by omega⟩
    have hless : fuel ≤ more := Nat.le_of_succ_le_succ hmore
    rw [outcome_succ] at h ⊢
    split_ifs at h ⊢ with hlimit
    · exact h
    · cases hround : m.round with
      | stopped lines k =>
        rw [hround] at h
        exact h
      | counted k =>
        rw [hround] at h
        exact ih h hless
      | ran lines answer k =>
        rw [hround] at h
        cases answer with
        | error f => exact h
        | ok x =>
          obtain ⟨r', hr', hr⟩ := Option.map_eq_some_iff.mp h
          exact Option.map_eq_some_iff.mpr ⟨r', ih hr' hless, hr⟩

/-! ## Counts -/

/-- The same outcome with more statements counted. -/
def Outcome.shift (d : Nat) (r : Outcome) : Outcome := (r.1, r.2.1.map (d + ·), r.2.2)

/-- **Statements that have been counted before count against the limit, and in the answer.** -/
theorem outcome_shift (d limit fuel count : Nat) (m : Machine) :
    outcome (some (d + limit)) fuel (d + count) m = (outcome (some limit) fuel count m).map (Outcome.shift d) := by
  induction fuel generalizing count m with
  | zero => rfl
  | succ fuel ih =>
    have hsame : (some (d + limit)).any (· ≤ d + count) = (some limit).any (· ≤ count) := by simp
    rw [outcome_succ, outcome_succ, hsame]
    split_ifs with hlimit
    · rfl
    · cases m.round with
      | stopped lines k => rfl
      | counted k => exact ih count k
      | ran lines answer k =>
        cases answer with
        | error f => rfl
        | ok x =>
          have hlater := ih (count + 1) k
          rw [← Nat.add_assoc] at hlater
          rw [Round.outcome, Round.outcome, hlater, Option.map_map, Option.map_map]
          rfl

/-! ## Runs that follow one another -/

/-- **Two runs, one after the other, are one run**, by induction on the rounds of the first.  The first stops at its
limit, and then all of the limit is used up, or it has nothing left to do, and then the second does nothing. -/
theorem outcome_add {a b i fuel' more : Nat} {t u : Machine} {later : List Nat} (hcount : count ≤ a)
    (hfirst : outcome (some a) fuel count m = some (lines, .ok i, t))
    (hsecond : outcome (some b) fuel' 0 t = some (later, answer, u)) (hmore : fuel + fuel' ≤ more) :
    outcome (some (a + b)) more count m = some (lines ++ later, answer.map (i + ·), u) := by
  induction fuel generalizing count m lines more with
  | zero => cases hfirst
  | succ fuel ih =>
    rw [outcome_succ] at hfirst
    split_ifs at hfirst with hstop
    · -- The first run has reached its limit, and the second one begins here.
      have hused : a ≤ count := by simpa using hstop.2
      obtain rfl : a = count := Nat.le_antisymm hused hcount
      have hshifted := outcome_shift a b fuel' 0 m
      cases hfirst
      rw [hsecond] at hshifted
      exact outcome_mono hshifted (by omega)
    · have hgoes : ¬ (m.AtLine ∧ (some (a + b)).any (· ≤ count) = true) := by
        rintro ⟨hline, hover⟩
        refine hstop ⟨hline, ?_⟩
        simp only [Option.any_some, decide_eq_true_eq] at hover ⊢
        omega
      obtain ⟨more, rfl⟩ : ∃ n, more = n + 1 := ⟨more - 1, by omega⟩
      rw [outcome_succ, if_neg hgoes]
      cases hround : m.round with
      | stopped lines' k =>
        -- Nothing is left to do for either run.
        rw [hround] at hfirst
        cases hfirst
        obtain ⟨fuel', rfl⟩ : ∃ n, fuel' = n + 1 := by
          cases fuel' with
          | zero => cases hsecond
          | succ n => exact ⟨n, rfl⟩
        rw [outcome_of_stopped hround] at hsecond
        cases hsecond
        simp [Round.outcome, Except.map]
      | counted k =>
        rw [hround] at hfirst
        exact ih hcount hfirst (by omega)
      | ran lines' result k =>
        rw [hround] at hfirst
        cases result with
        | error f => cases hfirst
        | ok x =>
          obtain ⟨⟨front, answer', l⟩, hrest, hsame⟩ := Option.map_eq_some_iff.mp hfirst
          cases hsame
          have hbelow : count < a := by
            by_contra hover
            exact hstop ⟨atLine_of_ran hround, by simpa using hover⟩
          have hlater := ih hbelow hrest (show fuel + fuel' ≤ more by omega)
          rw [Round.outcome, hlater]
          simp

/-- **Limits add up.**  Without extensions, let a run up to `a` statements come back from a machine with `i` statements
run, and let a run up to `b` statements come back from where it leads.  Then one run up to `a + b` statements comes back
from the machine with the answer of the second run, `i` statements more being counted in it, and it leads to the same
machine.  It executes the lines of the first run and then those of the second, and the loop that takes the lines one by
one comes back with the same. -/
theorem limits_add {m t u : Machine} (hm : m.Reachable) {a b i fuel fuel' : Nat} {answer : Except Fault Nat}
    (hfirst : m.run fuel (some a) = some (.ok i, t)) (hsecond : t.run fuel' (some b) = some (answer, u)) :
    (∀ more ≥ fuel + fuel', m.run more (some (a + b)) = some (answer.map (i + ·), u) ∧
      runLines (some (a + b)) more 0 m = runLines (some a) fuel 0 m ++ runLines (some b) fuel' 0 t) ∧
    ∃ enough, ∀ rounds ≥ enough,
      Engine.run rounds (some (a + b)) ⟨m, none⟩ = some (answer.map (i + ·), ⟨u, none⟩) := by
  have hboth : ∀ more ≥ fuel + fuel', m.run more (some (a + b)) = some (answer.map (i + ·), u) ∧
      runLines (some (a + b)) more 0 m = runLines (some a) fuel 0 m ++ runLines (some b) fuel' 0 t := by
    intro more hmore
    have hsum := outcome_add (Nat.zero_le a) (outcome_of_runFrom hfirst) (outcome_of_runFrom hsecond) hmore
    exact runFrom_of_outcome hsum
  obtain ⟨hrun, -⟩ := hboth (fuel + fuel') (Nat.le_refl _)
  exact ⟨hboth, hm.plain.runLoop_eq _ hrun⟩

/-- A script that waits, passes a blank line over and fails in its last line. -/
def waitingThenFailing : Machine := started "pause 2\nlog a\n\nset b 1"

/-- Its run, cut behind the countdown, fails as the whole run does. -/
theorem limits_add_of_waiting : ∃ f t u, waitingThenFailing.Reachable ∧
    waitingThenFailing.run 9 (some 1) = some (.ok 1, t) ∧ t.run 9 (some 5) = some (.error f, u) ∧
    waitingThenFailing.run 18 (some 6) = some (.error f, u) := by
  have hm : waitingThenFailing.Reachable := started_reachable _
  have hchecks : (waitingThenFailing.run 9 (some 1)).any (fun r => r.1.toOption == some 1 &&
      (r.2.run 9 (some 5)).any fun s => !s.1.isOk) = true := by
    decide +kernel
  obtain ⟨⟨answer, t⟩, hfirst, hrest⟩ := (Option.any_eq_true _ _).mp hchecks
  rw [Bool.and_eq_true] at hrest
  obtain ⟨hanswer, hsecond⟩ := hrest
  obtain ⟨⟨answer', u⟩, hsecond, hfails⟩ := (Option.any_eq_true _ _).mp hsecond
  cases answer with
  | error f => cases hanswer
  | ok i =>
    obtain rfl : i = 1 := by simpa [Except.toOption] using hanswer
    cases answer' with
    | ok j => cases hfails
    | error f =>
      obtain ⟨hboth, -⟩ := limits_add hm hfirst hsecond
      exact ⟨f, t, u, hm, hfirst, hsecond, (hboth 18 (Nat.le_refl 18)).1⟩

end Machine

end LineScript
