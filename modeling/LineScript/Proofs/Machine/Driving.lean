/-
# Ways of driving a run

A host drives a run by ticks, or lets it run on, up to its end or up to a number of statements.  These are
separate loops: a tick has a budget of statements, stands still for a countdown and looks for the end of the
script once more; a run counts statements only, and countdowns pass at once.

Main statement: both follow the one trajectory of the machine, whatever the budget (`drivers_share_trajectory`).

* `spend_reaches`, `tick_reaches`, `runFrom_reaches`: what one call of a driver does is a stretch;
* `runFrom_of_limit`: a run up to a number of statements always comes back;
* `driven_reaches`: so is what any mix of calls does.
-/
import LineScript.Proofs.Machine.Trajectory

namespace LineScript

open Act

namespace Machine

/-! ## Ticks -/

/-- The lines that `spend` executes. -/
def spendLines (inv : Invoke) : (budget : Nat) → Machine → List Nat
  | 0, _ => []
  | budget + 1, m =>
    if m.mode = .running then
      let s := m.settle.finishIfDone
      if s.mode = .running then
        let result := guarded (runCursorLine inv) s
        m.settledLines ++ s.cursor ::
          (if result.1.isOk then spendLines inv budget result.2 else [])
      else m.settledLines
    else []

/-- Without a running script no statement is spent. -/
theorem spend_of_not_running (inv : Invoke) (budget : Nat) {m : Machine} (h : m.mode ≠ .running) :
    spend inv budget m = (.ok (), m) ∧ spendLines inv budget m = [] := by
  cases budget with
  | zero => exact ⟨rfl, rfl⟩
  | succ budget =>
    constructor
    · rw [spend, get_bind_apply, if_neg h]
      rfl
    · rw [spendLines, if_neg h]

/-- The first statement that is spent, and the others behind it. -/
theorem spend_succ (inv : Invoke) (budget : Nat) {m : Machine} (h : m.mode = .running) :
    spend inv (budget + 1) m =
      if m.settle.finishIfDone.mode = .running then
        (guarded (runCursorLine inv) >>= fun _ => spend inv budget) m.settle.finishIfDone
      else (.ok (), m.settle.finishIfDone) := by
  rw [spend, get_bind_apply, if_pos h, modify_bind_apply, get_bind_apply]
  split_ifs with hs
  · rfl
  · rfl

/-- **What is spent is a stretch**, of at least one move when a script is running and something may be
spent. -/
theorem spend_reaches (inv : Invoke) (budget : Nat) {m : Machine} (hm : m.AvoidsExtensions) :
    m.Reaches (if m.mode = .running then min budget 1 else 0)
      ⟨spendLines inv budget m, faults (spend inv budget m).1, (spend inv budget m).2⟩ := by
  induction budget generalizing m with
  | zero =>
    rw [Nat.zero_min, ite_self]
    exact Reaches.refl m
  | succ budget ih =>
    -- One round is a stretch, and the statements that are left go on where it ends.
    by_cases hmode : m.mode = .running
    · rw [if_pos hmode, Nat.min_eq_right (Nat.le_add_left 1 budget), spend_succ inv budget hmode,
        spendLines, if_pos hmode]
      rcases round_reaches inv hm hmode with ⟨hdone, hround⟩ | ⟨hgoes, hround⟩
      · have hover : ¬ m.settle.finishIfDone.mode = .running := by rw [hdone]; simp
        rw [if_neg hover, if_neg hover]
        exact hround
      · rw [if_pos hgoes, bind_apply]
        dsimp only
        rw [if_pos hgoes]
        rcases hrun : guarded (runCursorLine inv) m.settle.finishIfDone with ⟨f | x, s⟩
        · rw [hrun] at hround
          exact hround
        · rw [hrun] at hround
          have hrest := hround.trans (ih (hm.later hround))
          simp only [Stretch.andThen, faults_ok, List.nil_append, List.append_assoc,
            List.singleton_append] at hrest
          exact hrest.mono (Nat.le_add_right 1 _)
    · obtain ⟨hspend, hlines⟩ := spend_of_not_running inv (budget + 1) hmode
      rw [if_neg hmode, hspend, hlines]
      exact Reaches.refl m

/-- A script that has no more lines finishes, and this is a stretch of the trajectory. -/
theorem finishIfDone_reaches (m : Machine) : m.Reaches 0 ⟨[], [], m.finishIfDone⟩ := by
  by_cases hmode : m.mode = .running
  · rcases finishIfDone_cases hmode with ⟨hend, -⟩ | ⟨-, hsame⟩
    · exact (Reaches.move hend).mono (Nat.zero_le 1)
    · rw [hsame]
      exact Reaches.refl m
  · have hsame : m.finishIfDone = m := if_neg fun h => hmode h.1
    rw [hsame]
    exact Reaches.refl m

/-- The lines that a tick executes. -/
def tickLines (m : Machine) : List Nat :=
  match m.mode with
  | .running => spendLines (invoke m.nesting) m.budget m
  | _ => []

/-- What a tick does. -/
def tickStretch (m : Machine) : Stretch := ⟨m.tickLines, faults (tick m).1, (tick m).2⟩

theorem tick_apply (m : Machine) :
    tick m = match m.mode with
      | .waiting (.ticks left) => (.ok (), m.countDown left)
      | .running => (spend (invoke m.nesting) m.budget >>= fun _ => modify finishIfDone) m
      | _ => (.ok (), m) := by
  rw [tick, get_bind_apply, tickWith, get_bind_apply]
  cases m.mode with
  | waiting w => cases w <;> rfl
  | idle | running | paused | finished | failed => rfl

/-- **A tick is a stretch**, of at least one move when a budget is given. -/
theorem tick_reaches {m : Machine} (hm : m.AvoidsExtensions) :
    m.Reaches (min m.budget 1) m.tickStretch := by
  unfold tickStretch
  rw [tick_apply, tickLines]
  cases hmode : m.mode with
  | running =>
    have hspent := spend_reaches (invoke m.nesting) m.budget hm
    rw [if_pos hmode] at hspent
    dsimp only
    rw [bind_apply]
    rcases hspend : spend (invoke m.nesting) m.budget m with ⟨f | x, s⟩
    · rw [hspend] at hspent
      exact hspent
    · rw [hspend] at hspent
      have hfinish := hspent.trans (finishIfDone_reaches s)
      simp only [Stretch.andThen, faults_ok, List.append_nil] at hfinish
      exact hfinish
  | waiting w =>
    cases w with
    | ticks left =>
      have hmove : m.advance = some { last := m.countDown left } := by simp only [advance, hmode]
      exact (Reaches.move hmove).mono (Nat.min_le_right _ 1)
    | key name => exact Reaches.rest (by simp only [advance, hmode]) _
  | idle | paused | finished | failed => exact Reaches.rest (by simp only [advance, hmode]) _

/-! ## Runs -/

/-- The lines that `runFrom` executes. -/
def runLines (limit : Option Nat) : (fuel : Nat) → (count : Nat) → Machine → List Nat
  | 0, _, _ => []
  | fuel + 1, count, m =>
    match m.mode with
    | .waiting (.ticks left) => runLines limit fuel count (m.countDown left)
    | .running =>
      let s := m.finishIfDone
      if s.mode ≠ .running ∨ limit.any (· ≤ count) then []
      else
        let s' := s.settle.finishIfDone
        if s'.mode ≠ .running then s.settledLines
        else
          let result := guarded (runCursorLine (invoke s'.nesting)) s'
          s.settledLines ++ s'.cursor ::
            (if result.1.isOk then runLines limit fuel (count + 1) result.2 else [])
    | _ => []

/-- A fault leaves the machine at rest. -/
theorem advance_of_guarded_error {α : Type} {a : Act α} {m s : Machine} {f : Fault}
    (h : guarded a m = (.error f, s)) : s.advance = none := by
  rw [guarded_apply] at h
  obtain ⟨hanswer, hlast⟩ := Prod.ext_iff.mp h
  dsimp only at hanswer hlast
  rw [hanswer] at hlast
  have hmode : s.mode = .failed := by
    rw [← hlast]
    rfl
  exact advance_eq_none (by simp [hmode]) (by simp [hmode])

/-- The run ends with an answer, whatever fuel is left; without a limit the machine is then at rest. -/
def EndsRound (limit : Option Nat) (count : Nat) (m : Machine) : Prop :=
  ∃ answer m' lines,
    (∀ fuel, runFrom limit (fuel + 1) count m = some (answer, m') ∧
      runLines limit (fuel + 1) count m = lines) ∧
    m.Reaches 0 ⟨lines, faults answer, m'⟩ ∧ (limit = none → m'.advance = none)

/-- The run goes on behind a stretch of at least one move. -/
def GoesOn (limit : Option Nat) (count : Nat) (m : Machine) (count' : Nat) (m' : Machine) : Prop :=
  ∃ lines,
    (∀ fuel, runFrom limit (fuel + 1) count m = runFrom limit fuel count' m' ∧
      runLines limit (fuel + 1) count m = lines ++ runLines limit fuel count' m') ∧
    m.Reaches 1 ⟨lines, [], m'⟩

/-- A countdown passes at once. -/
theorem goesOn_of_waiting (limit : Option Nat) (count : Nat) {m : Machine} {left : Nat}
    (h : m.mode = .waiting (.ticks left)) : GoesOn limit count m count (m.countDown left) := by
  refine ⟨[], fun fuel => ⟨?_, ?_⟩, Reaches.move (by simp only [advance, h])⟩
  · rw [runFrom, h]
  · rw [runLines, h, List.nil_append]

/-- A running script ends, reaches the limit, or runs one more statement. -/
theorem round_of_running (limit : Option Nat) (count : Nat) {m : Machine} (hm : m.AvoidsExtensions)
    (hmode : m.mode = .running) :
    EndsRound limit count m ∨
      limit.any (· ≤ count) = false ∧ ∃ m', GoesOn limit count m (count + 1) m' := by
  -- The loop tests for the end of the script, then for the limit, then for the end behind what it passes over.
  rcases finishIfDone_cases hmode with ⟨hend, hfinished⟩ | ⟨-, hsame⟩
  · left
    have hover : m.finishIfDone.mode ≠ .running ∨ limit.any (· ≤ count) = true := by
      left
      rw [hfinished]
      simp
    refine ⟨.ok count, m.finishIfDone, [], fun fuel => ⟨?_, ?_⟩, (Reaches.move hend).mono (by omega),
      fun _ => advance_of_finished hfinished⟩
    · rw [runFrom, hmode]
      exact if_pos hover
    · rw [runLines, hmode]
      exact if_pos hover
  · cases hlimit : limit.any (· ≤ count) with
    | true =>
      left
      have hover : m.mode ≠ .running ∨ limit.any (· ≤ count) = true := Or.inr hlimit
      refine ⟨.ok count, m, [], fun fuel => ⟨?_, ?_⟩, Reaches.refl m, ?_⟩
      · rw [runFrom, hmode, hsame]
        exact if_pos hover
      · rw [runLines, hmode, hsame]
        exact if_pos hover
      · rintro rfl
        cases hlimit
    | false =>
      have hgoes : ¬ (m.mode ≠ .running ∨ limit.any (· ≤ count) = true) := by
        rw [hlimit, hmode]
        simp
      rcases round_reaches (invoke m.settle.finishIfDone.nesting) hm hmode with
        ⟨hdone, hround⟩ | ⟨hsettled, hround⟩
      · left
        have hover : m.settle.finishIfDone.mode ≠ .running := by
          rw [hdone]
          simp
        refine ⟨.ok count, m.settle.finishIfDone, m.settledLines, fun fuel => ⟨?_, ?_⟩,
          hround.mono (Nat.zero_le 1), fun _ => advance_of_finished hdone⟩
        · rw [runFrom, hmode, hsame]
          exact (if_neg hgoes).trans (if_pos hover)
        · rw [runLines, hmode, hsame]
          exact (if_neg hgoes).trans (if_pos hover)
      · rcases hrun : guarded (runCursorLine (invoke m.settle.finishIfDone.nesting))
          m.settle.finishIfDone with ⟨f | x, s⟩
        · left
          rw [hrun] at hround
          refine ⟨.error f, s, m.settledLines ++ [m.settle.finishIfDone.cursor],
            fun fuel => ⟨?_, ?_⟩, hround.mono (Nat.zero_le 1), fun _ => advance_of_guarded_error hrun⟩
          · rw [runFrom, hmode, hsame]
            dsimp only
            rw [if_neg hgoes, if_neg (not_not.mpr hsettled), hrun]
          · rw [runLines, hmode, hsame]
            dsimp only
            rw [if_neg hgoes, if_neg (not_not.mpr hsettled), hrun]
            rfl
        · right
          rw [hrun] at hround
          refine ⟨rfl, s, m.settledLines ++ [m.settle.finishIfDone.cursor],
            fun fuel => ⟨?_, ?_⟩, hround⟩
          · rw [runFrom, hmode, hsame]
            dsimp only
            rw [if_neg hgoes, if_neg (not_not.mpr hsettled), hrun]
          · rw [runLines, hmode, hsame]
            dsimp only
            rw [if_neg hgoes, if_neg (not_not.mpr hsettled), hrun, List.append_assoc]
            rfl

/-- A machine that is neither running nor counting down does nothing in a tick. -/
theorem tick_of_rest {m : Machine} (hrun : m.mode ≠ .running) (hwait : ∀ left, m.mode ≠ .waiting (.ticks left)) :
    tick m = (.ok (), m) ∧ m.tickLines = [] := by
  rw [tick_apply, tickLines]
  constructor
  · split
    · rename_i left h
      exact absurd h (hwait left)
    · rename_i h
      exact absurd h hrun
    · rfl
  · split
    · rename_i h
      exact absurd h hrun
    · rfl

/-- A machine that is neither running nor counting down does nothing in a run. -/
theorem runFrom_of_rest (limit : Option Nat) (fuel count : Nat) {m : Machine} (hrun : m.mode ≠ .running)
    (hwait : ∀ left, m.mode ≠ .waiting (.ticks left)) :
    runFrom limit (fuel + 1) count m = some (.ok count, m) ∧ runLines limit (fuel + 1) count m = [] := by
  rw [runFrom, runLines]
  constructor <;> split
  · rename_i left h
    exact absurd h (hwait left)
  · rename_i h
    exact absurd h hrun
  · rfl
  · rename_i left h
    exact absurd h (hwait left)
  · rename_i h
    exact absurd h hrun
  · rfl

/-- It ends a run at once. -/
theorem endsRound_of_rest (limit : Option Nat) (count : Nat) {m : Machine} (hrun : m.mode ≠ .running)
    (hwait : ∀ left, m.mode ≠ .waiting (.ticks left)) : EndsRound limit count m :=
  ⟨.ok count, m, [], fun fuel => runFrom_of_rest limit fuel count hrun hwait, Reaches.refl m,
    fun _ => advance_eq_none hrun hwait⟩

/-- A round of a run ends it, or the run goes on behind a stretch. -/
theorem run_round (limit : Option Nat) (count : Nat) {m : Machine} (hm : m.AvoidsExtensions) :
    EndsRound limit count m ∨ ∃ count' m', GoesOn limit count m count' m' := by
  by_cases hrun : m.mode = .running
  · rcases round_of_running limit count hm hrun with hend | ⟨-, m', hgoes⟩
    · exact Or.inl hend
    · exact Or.inr ⟨count + 1, m', hgoes⟩
  · by_cases hwait : ∃ left, m.mode = .waiting (.ticks left)
    · obtain ⟨left, h⟩ := hwait
      exact Or.inr ⟨count, m.countDown left, goesOn_of_waiting limit count h⟩
    · exact Or.inl (endsRound_of_rest limit count hrun fun left h => hwait ⟨left, h⟩)

/-- **A run that comes back is a stretch**, and without a limit it leaves the machine at rest. -/
theorem runFrom_reaches {limit : Option Nat} (fuel : Nat) {count : Nat} {m m' : Machine}
    {answer : Except Fault Nat} (hm : m.AvoidsExtensions)
    (h : runFrom limit fuel count m = some (answer, m')) :
    m.Reaches 0 ⟨runLines limit fuel count m, faults answer, m'⟩ ∧
      (limit = none → m'.advance = none) := by
  induction fuel generalizing count m with
  | zero => cases h
  | succ fuel ih =>
    rcases run_round limit count hm with ⟨answer', s, lines, hends, hreach, hrest⟩ |
      ⟨count', s, lines, hgoes, hreach⟩
    · obtain ⟨hrun, hlines⟩ := hends fuel
      rw [hrun] at h
      cases h
      rw [hlines]
      exact ⟨hreach, hrest⟩
    · obtain ⟨hrun, hlines⟩ := hgoes fuel
      rw [hrun] at h
      obtain ⟨hlater, hrest⟩ := ih (hm.later hreach) h
      rw [hlines]
      exact ⟨(hreach.trans hlater).mono (Nat.zero_le _), hrest⟩

/-- A tick leads to the end of a stretch. -/
theorem exists_stretch_tick {m : Machine} (hm : m.AvoidsExtensions) : ∃ n, (tick m).2 = (m.stretch n).last := by
  obtain ⟨n, -, hn⟩ := tick_reaches hm
  exact ⟨n, by rw [hn, tickStretch]⟩

/-- A run that comes back leads to the end of a stretch. -/
theorem exists_stretch_run {m m' : Machine} {fuel : Nat} {limit : Option Nat} {answer : Except Fault Nat}
    (hm : m.AvoidsExtensions) (h : m.run fuel limit = some (answer, m')) : ∃ n, m' = (m.stretch n).last := by
  obtain ⟨⟨n, -, hn⟩, -⟩ := runFrom_reaches fuel hm h
  exact ⟨n, by rw [hn]⟩

/-- The rounds of a run that has not come back yet are a stretch too, of at least as many moves. -/
theorem runFrom_reaches_of_none {limit : Option Nat} (fuel : Nat) {count : Nat} {m : Machine}
    (hm : m.AvoidsExtensions) (h : runFrom limit fuel count m = none) :
    ∃ last, m.Reaches fuel ⟨runLines limit fuel count m, [], last⟩ := by
  induction fuel generalizing count m with
  | zero => exact ⟨m, Reaches.refl m⟩
  | succ fuel ih =>
    rcases run_round limit count hm with ⟨answer', s, lines, hends, -, -⟩ |
      ⟨count', s, lines, hgoes, hreach⟩
    · rw [(hends fuel).1] at h
      cases h
    · obtain ⟨hrun, hlines⟩ := hgoes fuel
      rw [hrun] at h
      obtain ⟨last, hlater⟩ := ih (hm.later hreach) h
      rw [hlines]
      refine ⟨last, (hreach.trans hlater).mono ?_⟩
      omega

/-- A run that goes on comes back when the rest of it does. -/
theorem GoesOn.comes_back {limit : Option Nat} {count count' : Nat} {m m' : Machine}
    (h : GoesOn limit count m count' m') (hrest : ∃ fuel, (runFrom limit fuel count' m').isSome) :
    ∃ fuel, (runFrom limit fuel count m).isSome := by
  obtain ⟨lines, hgoes, -⟩ := h
  obtain ⟨fuel, hfuel⟩ := hrest
  exact ⟨fuel + 1, by rw [(hgoes fuel).1, hfuel]⟩

/-- A run comes back from a countdown when it does so from the running script behind it. -/
theorem comes_back_of_waiting {limit : Option Nat} {count : Nat}
    (hrun : ∀ m : Machine, m.AvoidsExtensions → m.mode = .running →
      ∃ fuel, (runFrom limit fuel count m).isSome)
    (left : Nat) {m : Machine} (hm : m.AvoidsExtensions) (h : m.mode = .waiting (.ticks left)) :
    ∃ fuel, (runFrom limit fuel count m).isSome := by
  induction left generalizing m with
  | zero =>
    have hmove : m.advance = some { last := m.countDown 0 } := by simp only [advance, h]
    exact (goesOn_of_waiting limit count h).comes_back
      (hrun _ (hm.later (Reaches.move hmove)) rfl)
  | succ left ih =>
    have hmove : m.advance = some { last := m.countDown (left + 1) } := by simp only [advance, h]
    have hlater := hm.later (Reaches.move hmove)
    refine (goesOn_of_waiting limit count h).comes_back ?_
    by_cases hlast : left = 0
    · refine hrun _ hlater ?_
      simp [countDown, hlast]
    · refine ih hlater ?_
      simp [countDown, hlast]

/-- **A run up to a number of statements comes back**, by induction on the statements that are left. -/
theorem runFrom_of_limit (limit : Nat) {count : Nat} {m : Machine} (hm : m.AvoidsExtensions) :
    ∃ fuel, (runFrom (some limit) fuel count m).isSome := by
  have hends : ∀ {count : Nat} {m : Machine}, EndsRound (some limit) count m →
      ∃ fuel, (runFrom (some limit) fuel count m).isSome := by
    rintro count m ⟨answer, m', lines, h, -⟩
    exact ⟨1, by rw [(h 0).1]; rfl⟩
  induction hleft : limit - count using Nat.strongRecOn generalizing count m with
  | ind k ih =>
    -- A countdown uses up no statement, so it is followed to its end before the induction is used.
    have hrunning : ∀ s : Machine, s.AvoidsExtensions → s.mode = .running →
        ∃ fuel, (runFrom (some limit) fuel count s).isSome := by
      intro s hs hmode
      rcases round_of_running (some limit) count hs hmode with hend | ⟨hbelow, s', hgoes⟩
      · exact hends hend
      · have hlt : count < limit := by simpa using hbelow
        obtain ⟨lines, -, hreach⟩ := id hgoes
        exact hgoes.comes_back (ih (limit - (count + 1)) (by omega) (hs.later hreach) rfl)
    by_cases hrun : m.mode = .running
    · exact hrunning m hm hrun
    · by_cases hwait : ∃ left, m.mode = .waiting (.ticks left)
      · obtain ⟨left, h⟩ := hwait
        exact comes_back_of_waiting hrunning left hm h
      · exact hends (endsRound_of_rest _ _ hrun fun left h => hwait ⟨left, h⟩)

/-! ## Mixes of both -/

/-- One call of a driver. -/
inductive Drive
  | tick
  /-- Run on, up to the end or up to a number of statements. -/
  | run (limit : Option Nat)
  deriving DecidableEq, Repr

/-- What a run does, when `fuel` rounds are enough for it. -/
def runStretch (fuel : Nat) (limit : Option Nat) (m : Machine) : Option Stretch :=
  (m.run fuel limit).map fun (answer, m') => ⟨runLines limit fuel 0 m, faults answer, m'⟩

/-- A call of a driver comes back and has done something. -/
def Drive.Does : Drive → Machine → Stretch → Prop
  | .tick, m, t => m.tickStretch = t
  | .run limit, m, t => ∃ fuel, m.runStretch fuel limit = some t

/-- Calls of drivers, one after another, have done something. -/
def Driven : List Drive → Machine → Stretch → Prop
  | [], m, t => ⟨[], [], m⟩ = t
  | d :: rest, m, t => ∃ u v, d.Does m u ∧ Driven rest u.last v ∧ u.andThen v = t

/-- The answer of a run and what it leads to. -/
theorem runStretch_eq_some {fuel : Nat} {limit : Option Nat} {m : Machine} {t : Stretch}
    (h : m.runStretch fuel limit = some t) :
    ∃ answer, m.run fuel limit = some (answer, t.last) ∧
      t = ⟨runLines limit fuel 0 m, faults answer, t.last⟩ := by
  obtain ⟨⟨answer, m'⟩, hrun, rfl⟩ := Option.map_eq_some_iff.mp h
  exact ⟨answer, hrun, rfl⟩

/-- A trajectory keeps its budget. -/
theorem stretch_budget {m : Machine} (hm : m.AvoidsExtensions) (k : Nat) :
    (m.stretch k).last.budget = m.budget := by
  have hsame : (m.stretch k).last = (m.stretch k).last.withBudget m.budget :=
    congrArg Stretch.last (stretch_withBudget hm m.budget k)
  rw [hsame]
  rfl

/-- What one call of a driver does is a stretch; a tick makes at least one move. -/
theorem does_reaches {d : Drive} {m : Machine} {t : Stretch} (hm : m.AvoidsExtensions)
    (hbudget : 0 < m.budget) (h : d.Does m t) : m.Reaches (if d = .tick then 1 else 0) t := by
  cases d with
  | tick =>
    obtain rfl := h
    exact (tick_reaches hm).mono (Nat.le_min.mpr ⟨hbudget, Nat.le_refl 1⟩)
  | run limit =>
    obtain ⟨fuel, hrun⟩ := h
    obtain ⟨answer, hanswer, ht⟩ := runStretch_eq_some hrun
    rw [if_neg (by simp), ht]
    exact (runFrom_reaches fuel hm hanswer).1

/-- **What any mix of calls does is a stretch**, of at least as many moves as there are ticks in it. -/
theorem driven_reaches {ds : List Drive} {m : Machine} {t : Stretch} (hm : m.AvoidsExtensions)
    (hbudget : 0 < m.budget) (h : Driven ds m t) : m.Reaches (ds.count .tick) t := by
  induction ds generalizing m t with
  | nil =>
    obtain rfl := h
    exact Reaches.refl m
  | cons d ds ih =>
    obtain ⟨u, v, hu, hv, rfl⟩ := h
    have hfirst := does_reaches hm hbudget hu
    obtain ⟨k, -, rfl⟩ := id hfirst
    have hrest := ih (hm.later hfirst) (by rwa [stretch_budget hm k]) hv
    refine (hfirst.trans hrest).mono ?_
    cases d with
    | tick =>
      rw [List.count_cons_self, if_pos rfl]
      omega
    | run limit =>
      rw [List.count_cons_of_ne (by simp)]
      omega

/-- Mixes of ticks and limited runs come back. -/
theorem exists_driven {ds : List Drive} {m : Machine} (hm : m.AvoidsExtensions)
    (hbudget : 0 < m.budget) (hds : .run none ∉ ds) : ∃ t, Driven ds m t := by
  induction ds generalizing m with
  | nil => exact ⟨_, rfl⟩
  | cons d ds ih =>
    obtain ⟨hd, hrest⟩ : .run none ≠ d ∧ .run none ∉ ds := by simpa using hds
    obtain ⟨u, hu⟩ : ∃ u, d.Does m u := by
      cases d with
      | tick => exact ⟨_, rfl⟩
      | run limit =>
        cases limit with
        | none => exact absurd rfl hd
        | some k =>
          obtain ⟨fuel, hfuel⟩ : ∃ fuel, (runFrom (some k) fuel 0 m).isSome := runFrom_of_limit k hm
          obtain ⟨⟨answer, m'⟩, hrun⟩ := Option.isSome_iff_exists.mp hfuel
          exact ⟨_, fuel, by rw [runStretch, run, hrun]; rfl⟩
    have hfirst := does_reaches hm hbudget hu
    obtain ⟨k, -, rfl⟩ := id hfirst
    obtain ⟨v, hv⟩ := ih (hm.later hfirst) (by rwa [stretch_budget hm k]) hrest
    exact ⟨_, _, v, hu, hv, rfl⟩

/-- **Driver independence.**  A machine whose run meets no keyword of an extension has one trajectory, and
for every positive budget:

* any mix of ticks and runs does a stretch of it;
* a mix without unlimited runs always comes back;
* ticks go along it as far as one likes;
* so does a run to completion that does not come back;
* when a run to completion comes back, all long enough series of ticks execute the same lines, give the same
  faults and lead to the same machine but for the budget. -/
theorem drivers_share_trajectory {m : Machine} (hm : m.AvoidsExtensions) {n : Nat} (hn : 0 < n) :
    (∀ ds t, Driven ds (m.withBudget n) t → ∃ k, (m.stretch k).withBudget n = t) ∧
    (∀ ds, .run none ∉ ds → ∃ t, Driven ds (m.withBudget n) t) ∧
    (∀ ticks, ∃ k ≥ ticks,
      Driven (List.replicate ticks .tick) (m.withBudget n) ((m.stretch k).withBudget n)) ∧
    (∀ fuel, m.run fuel none = none →
      ∃ k ≥ fuel, (m.stretch k).lines = runLines none fuel 0 m ∧ (m.stretch k).faults = []) ∧
    (∀ fuel answer m', m.run fuel none = some (answer, m') → ∃ enough, ∀ ticks ≥ enough,
      Driven (List.replicate ticks .tick) (m.withBudget n)
        ⟨runLines none fuel 0 m, faults answer, m'.withBudget n⟩) := by
  have hm' := hm.withBudget n
  have hmix : ∀ ds t, Driven ds (m.withBudget n) t →
      ∃ k ≥ ds.count .tick, (m.stretch k).withBudget n = t := by
    intro ds t ht
    obtain ⟨k, hk, rfl⟩ := driven_reaches hm' hn ht
    exact ⟨k, hk, (stretch_withBudget hm n k).symm⟩
  have hticks : ∀ ticks, ∃ k ≥ ticks,
      Driven (List.replicate ticks .tick) (m.withBudget n) ((m.stretch k).withBudget n) := by
    intro ticks
    have hlimited : Drive.run none ∉ List.replicate ticks Drive.tick := by
      intro hmem
      cases List.eq_of_mem_replicate hmem
    obtain ⟨t, ht⟩ := exists_driven hm' hn hlimited
    obtain ⟨k, hk, rfl⟩ := hmix _ t ht
    rw [List.count_replicate_self] at hk
    exact ⟨k, hk, ht⟩
  refine ⟨?_, fun ds => exists_driven hm' hn, hticks, ?_, ?_⟩
  · intro ds t ht
    obtain ⟨k, -, hk⟩ := hmix ds t ht
    exact ⟨k, hk⟩
  · intro fuel hrun
    obtain ⟨last, k, hk, hstretch⟩ := runFrom_reaches_of_none fuel hm hrun
    exact ⟨k, hk, by rw [hstretch], by rw [hstretch]⟩
  · intro fuel answer m' hrun
    obtain ⟨⟨k, -, hstretch⟩, hrest⟩ := runFrom_reaches fuel hm hrun
    refine ⟨k, fun ticks hle => ?_⟩
    obtain ⟨k', hk', hdriven⟩ := hticks ticks
    -- Behind the end of the run nothing happens any more, so the longer stretch is the same.
    have hsame : m.stretch k' = m.stretch k := by
      obtain ⟨more, rfl⟩ := Nat.exists_eq_add_of_le (Nat.le_trans hle hk')
      rw [stretch_add, hstretch, stretch_of_rest (hrest rfl), Stretch.andThen_nothing]
    rw [hsame, hstretch] at hdriven
    exact hdriven

/-- A script that waits, prints, passes a blank line over and fails on its fourth line. -/
def failingMachine : Machine :=
  { script := { lines := #["pause 2", "log a", "", "set b 1", "log c"] }, mode := .running }

/-- Ticks of three statements fail where the run to completion fails. -/
theorem drivers_share_trajectory_of_failing :
    ∃ f m', failingMachine.run 9 none = some (.error f, m') ∧ ∃ enough, ∀ ticks ≥ enough,
      Driven (List.replicate ticks .tick) (failingMachine.withBudget 3)
        ⟨[0, 1, 2, 3], [f], m'.withBudget 3⟩ := by
  have hlines : ((failingMachine.run 9 none).map fun r => r.1.isOk) = some false ∧
      runLines none 9 0 failingMachine = [0, 1, 2, 3] := by decide +kernel
  obtain ⟨hfails, hlines⟩ := hlines
  obtain ⟨⟨answer, m'⟩, hrun, hanswer⟩ := Option.map_eq_some_iff.mp hfails
  cases answer with
  | ok count => cases hanswer
  | error f =>
    have hdriven := (drivers_share_trajectory (avoidsExtensions_of_keywords rfl)
      (by decide : 0 < 3)).2.2.2.2 9 (.error f) m' hrun
    rw [hlines] at hdriven
    exact ⟨f, m', hrun, hdriven⟩

end Machine

end LineScript
