/-
# Suspended runs

A run is suspended while it is paused or waits.  Lines suspend it, the host does, and resuming it brings back the
wait that a pause has interrupted.  But a host can run lines in every state, and nothing stops such a line from
suspending a run that is over, or from putting a wait in the place of a pause.

Main statements: a run that has failed executes no line before it is renewed, unless a line of the host has suspended
it (`failed_until_suspended`), and a wait is saved while the run is paused, and only then, unless the host has
interfered (`Undisturbed.savesWhilePaused`, `saved_wait_while_paused`).
-/
import LineScript.Proofs.Machine.Hosting
import LineScript.Proofs.Machine.Turn

namespace LineScript

open Act

/-! ## Sequences of calls -/

namespace HostCall

/-- A call that loads or starts a script, or drops what it has made. -/
def renews : HostCall → Bool
  | load _ _ | start _ | startWith _ _ | stop => true
  | _ => false

/-- A call that neither renews nor resumes a run, and runs no line of the host. -/
def isQuiet : HostCall → Bool
  | tick | run _ _ | pause | deliverKey _ | provide _ _ | print _ => true
  | _ => false

/-- The lines of the script that a tick or a run executes. -/
def lines : HostCall → Machine → List Nat
  | tick, m => m.tickLines
  | run fuel limit, m => Machine.runLines limit fuel 0 m
  | _, _ => []

/-- The lines that the ticks and runs in a row of calls execute, and the machine that the calls lead to; none when the
fuel of some call is not enough. -/
def performAll : List HostCall → Machine → Option (List Nat × Machine)
  | [], m => some ([], m)
  | c :: rest, m => do
    let (_, k) ← c.perform m
    let (lines, l) ← performAll rest k
    return (c.lines m ++ lines, l)

theorem performAll_cons {c : HostCall} {rest : List HostCall} {m l : Machine} {lines : List Nat}
    (h : performAll (c :: rest) m = some (lines, l)) :
    ∃ answer k later, c.perform m = some (answer, k) ∧ performAll rest k = some (later, l) ∧
      lines = c.lines m ++ later := by
  obtain ⟨⟨answer, k⟩, hc, h⟩ := Option.bind_eq_some_iff.mp h
  obtain ⟨⟨later, l'⟩, hrest, h⟩ := Option.bind_eq_some_iff.mp h
  cases h
  exact ⟨answer, k, later, hc, hrest, rfl⟩

theorem performAll_of_cons {c : HostCall} {rest : List HostCall} {m k l : Machine} {answer : Except Fault Unit}
    {later : List Nat} (hc : c.perform m = some (answer, k)) (hrest : performAll rest k = some (later, l)) :
    performAll (c :: rest) m = some (c.lines m ++ later, l) := by
  unfold performAll
  rw [hc]
  show (performAll rest k).bind _ = _
  rw [hrest]
  rfl

end HostCall

namespace Machine

/-! ## What suspends a run -/

/-- The run is paused, or it waits. -/
def Suspended (m : Machine) : Prop := m.mode = .paused ∨ ∃ w, m.mode = .waiting w

/-- **What a line does to the stage of a run and to the wait that is saved**: it leaves both as they are, it suspends
the run, or it resets the machine, which drops the wait. -/
theorem Turn.stage {m k : Machine} {keywords : List String} {next : Option Nat} (h : m.Turn keywords next k) :
    (k.mode = m.mode ∧ k.savedWait = m.savedWait) ∨
      (k.Suspended ∧ k.savedWait = m.savedWait ∧ ("pause" ∈ keywords ∨ "awaitkey" ∈ keywords)) ∨
      ((k.mode = .idle ∨ k.mode = m.mode) ∧ k.savedWait = none) := by
  cases h with
  | steady hk => exact Or.inl ⟨hk.mode, hk.savedWait⟩
  | called name args start s hcall hnext hk => exact Or.inl ⟨hk.mode, hk.savedWait⟩
  | iterated name items start s hok hnext hk => exact Or.inl ⟨hk.mode, hk.savedWait⟩
  | returned name line s hok hnext hk => exact Or.inl ⟨hk.mode, hk.savedWait⟩
  | halted mode hkeyword hmode hnext hk =>
    refine Or.inr (Or.inl ⟨?_, hk.savedWait, hkeyword⟩)
    unfold Suspended
    rw [hk.mode]
    exact hmode
  | reset mode hmode hnext hk =>
    refine Or.inr (Or.inr ⟨?_, hk.savedWait⟩)
    rw [hk.mode]
    exact hmode.imp And.left And.left

/-- **What a line of the host does to them.**  When it fails it leaves both as they are. -/
theorem Plain.execute_stage {m k : Machine} (hm : m.Plain) {text : String} {answer : Except Fault Unit}
    (h : Machine.execute text m = (answer, k)) :
    (k.mode = m.mode ∧ k.savedWait = m.savedWait) ∨
      (answer = .ok () ∧ k.Suspended ∧ k.savedWait = m.savedWait ∧
        ("pause" ∈ m.words (hostLine text) ∨ "awaitkey" ∈ m.words (hostLine text))) ∨
      ((k.mode = .idle ∨ k.mode = m.mode) ∧ k.savedWait = none) := by
  have hturn := hm.turn_execute text
  cases answer with
  | error f =>
    have hplace := hturn.of_error h
    exact Or.inl ⟨hplace.mode, hplace.savedWait⟩
  | ok x =>
    rcases hturn.of_ok h with rfl | ⟨next, l, hl, rfl⟩
    · exact Or.inl ⟨rfl, rfl⟩
    · exact hl.stage.imp_right (Or.imp_left fun hsuspended => ⟨rfl, hsuspended⟩)

/-- A move starts while the run goes on or counts ticks, and it saves no wait. -/
theorem Move.stage {m : Machine} {t : Stretch} (h : m.Move t) :
    m.mode ≠ .paused ∧ (t.last.savedWait = m.savedWait ∨ t.last.savedWait = none) := by
  cases h with
  | counted left hmode => exact ⟨by rw [hmode]; nofun, Or.inl rfl⟩
  | ended hmode hline => exact ⟨by rw [hmode]; nofun, Or.inl rfl⟩
  | passed line hmode hline => exact ⟨by rw [hmode]; nofun, Or.inl rfl⟩
  | ran line next k hmode hline hrun hturn =>
    refine ⟨by rw [hmode]; nofun, ?_⟩
    rcases hturn.stage with ⟨-, hsame⟩ | ⟨-, hsame, -⟩ | ⟨-, hnone⟩
    · exact Or.inl hsame
    · exact Or.inl hsame
    · exact Or.inr hnone
  | failed line f k hmode hline hplace =>
    refine ⟨by rw [hmode]; nofun, Or.inl ?_⟩
    obtain ⟨events, hfail⟩ := fail_eq f k
    show (fail f k).savedWait = _
    rw [hfail]
    exact hplace.savedWait

/-! ## Runs that do not go on by themselves -/

/-- The run neither goes on nor waits. -/
def AtRest (m : Machine) : Prop := m.mode ≠ .running ∧ ∀ w, m.mode ≠ .waiting w

theorem AtRest.tick {m : Machine} (h : m.AtRest) : Machine.tick m = (.ok (), m) ∧ m.tickLines = [] :=
  tick_of_rest h.1 fun left => h.2 (.ticks left)

theorem AtRest.run {m : Machine} (h : m.AtRest) (limit : Option Nat) (fuel : Nat) :
    m.run (fuel + 1) limit = some (.ok 0, m) ∧ runLines limit (fuel + 1) 0 m = [] :=
  runFrom_of_rest limit fuel 0 h.1 fun left => h.2 (.ticks left)

/-- Pausing does nothing. -/
theorem AtRest.pause {m : Machine} (h : m.AtRest) : m.pause = m := by
  unfold Machine.pause
  split
  · rename_i hmode
    exact absurd hmode h.1
  · rename_i w hmode
    exact absurd hmode (h.2 w)
  · rfl

/-- No key is waited for. -/
theorem AtRest.deliverKey {m : Machine} (h : m.AtRest) (key : String) :
    (m.deliverKey key).mode = m.mode ∧ (m.deliverKey key).savedWait = m.savedWait := by
  have hwait : endsWait key m.mode = false := by
    unfold endsWait
    split
    · rename_i hmode
      exact absurd hmode (h.2 _)
    · rename_i name hmode
      exact absurd hmode (h.2 _)
    · rfl
  unfold Machine.deliverKey
  dsimp only
  rw [hwait]
  exact ⟨rfl, rfl⟩

/-- **Quiet calls do not make a run go on**, and they leave a wait saved. -/
theorem AtRest.perform {m k : Machine} (h : m.AtRest) {c : HostCall} (hc : c.isQuiet = true)
    {answer : Except Fault Unit} (hk : c.perform m = some (answer, k)) :
    c.lines m = [] ∧ k.mode = m.mode ∧ k.savedWait = m.savedWait := by
  cases c with
  | load _ _ | start _ | startWith _ _ | stop | resume | execute _ => cases hc
  | tick =>
    obtain rfl : (Machine.tick m).2 = k := congrArg Prod.snd (Option.some.inj hk)
    obtain ⟨htick, hlines⟩ := h.tick
    rw [htick]
    exact ⟨hlines, rfl, rfl⟩
  | run fuel limit =>
    obtain ⟨⟨count, k'⟩, hrun, hsame⟩ := Option.map_eq_some_iff.mp hk
    cases hsame
    cases fuel with
    | zero => cases hrun
    | succ fuel =>
      obtain ⟨hanswer, hlines⟩ := h.run limit fuel
      rw [hanswer] at hrun
      cases hrun
      exact ⟨hlines, rfl, rfl⟩
  | pause =>
    cases hk
    rw [h.pause]
    exact ⟨rfl, rfl, rfl⟩
  | deliverKey key =>
    cases hk
    exact ⟨rfl, h.deliverKey key⟩
  | provide name value =>
    cases hk
    exact ⟨rfl, rfl, rfl⟩
  | print message =>
    cases hk
    exact ⟨rfl, rfl, rfl⟩

/-! ## Runs that are over -/

/-- The run is over after a fault, or it has been stopped. -/
def Over (m : Machine) : Prop := m.mode = .idle ∨ m.mode = .failed

theorem Over.atRest {m : Machine} (h : m.Over) : m.AtRest := by
  rcases h with hmode | hmode <;> refine ⟨?_, fun w => ?_⟩ <;> rw [hmode] <;> nofun

theorem Over.of_mode {m k : Machine} (h : m.Over) (hmode : k.mode = m.mode) : k.Over := by
  unfold Over
  rw [hmode]
  exact h

theorem Over.resume {m : Machine} (h : m.Over) : m.resume = m := by
  unfold Machine.resume
  rcases h with hmode | hmode <;> rw [hmode]

/-- **What a call does to a run that is over**: it executes no line of the script, and the run stays over unless the
call is a line of the host that suspends it. -/
theorem Over.perform {m k : Machine} (hm : m.Plain) (hover : m.Over) {c : HostCall} (hc : c.renews = false)
    {answer : Except Fault Unit} (h : c.perform m = some (answer, k)) :
    c.lines m = [] ∧ (k.Over ∨ ∃ text, c = .execute text ∧ answer = .ok () ∧ k.Suspended ∧
      ("pause" ∈ m.words (hostLine text) ∨ "awaitkey" ∈ m.words (hostLine text))) := by
  cases hquiet : c.isQuiet with
  | true =>
    obtain ⟨hlines, hmode, -⟩ := hover.atRest.perform hquiet h
    exact ⟨hlines, Or.inl (hover.of_mode hmode)⟩
  | false =>
    cases c with
    | load _ _ | start _ | startWith _ _ | stop => cases hc
    | tick | run _ _ | pause | deliverKey _ | provide _ _ | print _ => cases hquiet
    | resume =>
      cases h
      rw [hover.resume]
      exact ⟨rfl, Or.inl hover⟩
    | execute text =>
      refine ⟨rfl, ?_⟩
      rcases hm.execute_stage (Option.some.inj h) with ⟨hmode, -⟩ | ⟨hok, hsuspended, -, hkeyword⟩ | ⟨hmode, -⟩
      · exact Or.inl (hover.of_mode hmode)
      · exact Or.inr ⟨text, rfl, hok, hsuspended, hkeyword⟩
      · exact Or.inl (hmode.elim Or.inl hover.of_mode)

/-- **A run that is over executes no line of the script before it is renewed, unless a line of the host suspends it
first**, by induction on the calls. -/
theorem Over.performAll {m : Machine} (hm : m.Reachable) (hover : m.Over) {calls : List HostCall}
    (hcalls : ∀ c ∈ calls, c.renews = false) {lines : List Nat} {k : Machine}
    (h : HostCall.performAll calls m = some (lines, k)) :
    (lines = [] ∧ k.Over) ∨ ∃ before text after l l', calls = before ++ .execute text :: after ∧
      HostCall.performAll before m = some ([], l) ∧ l.Over ∧ Machine.execute text l = (.ok (), l') ∧ l'.Suspended ∧
      ("pause" ∈ l.words (hostLine text) ∨ "awaitkey" ∈ l.words (hostLine text)) ∧
      HostCall.performAll after l' = some (lines, k) := by
  induction calls generalizing m lines with
  | nil =>
    cases h
    exact Or.inl ⟨rfl, hover⟩
  | cons c rest ih =>
    obtain ⟨answer, m', later, hc, hrest, rfl⟩ := HostCall.performAll_cons h
    obtain ⟨hlines, hover' | ⟨text, rfl, rfl, hsuspended, hkeyword⟩⟩ :=
      hover.perform hm.plain (hcalls c List.mem_cons_self) hc
    · rw [hlines, List.nil_append]
      rcases ih (hm.perform hc) hover' (fun c' hc' => hcalls c' (List.mem_cons_of_mem _ hc')) hrest with
        hquiet | ⟨before, text, after, l, l', rfl, hbefore, hsuspends⟩
      · exact Or.inl hquiet
      · refine Or.inr ⟨c :: before, text, after, l, l', rfl, ?_, hsuspends⟩
        rw [HostCall.performAll_of_cons hc hbefore, hlines]
        rfl
    · rw [hlines, List.nil_append]
      exact Or.inr ⟨[], text, rest, m, m', rfl, rfl, hover, Option.some.inj hc, hsuspended, hkeyword, hrest⟩

/-- **A run that has failed executes no line of the script before it is renewed, unless a line of the host suspends
it.**  Up to such a line it stays over, and neither ticks nor runs do anything. -/
theorem failed_until_suspended {m k : Machine} (hm : m.Reachable) (hfailed : m.mode = .failed)
    {calls : List HostCall} (hcalls : ∀ c ∈ calls, c.renews = false) {lines : List Nat}
    (h : HostCall.performAll calls m = some (lines, k)) :
    (lines = [] ∧ k.Over ∧ Machine.tick k = (.ok (), k) ∧
        ∀ limit fuel, k.run (fuel + 1) limit = some (.ok 0, k)) ∨
      ∃ before text after l l', calls = before ++ .execute text :: after ∧
        HostCall.performAll before m = some ([], l) ∧ l.Over ∧
        Machine.execute text l = (.ok (), l') ∧ l'.Suspended ∧
        ("pause" ∈ l.words (hostLine text) ∨ "awaitkey" ∈ l.words (hostLine text)) ∧
        HostCall.performAll after l' = some (lines, k) := by
  have hover : m.Over := Or.inr hfailed
  rcases hover.performAll hm hcalls h with ⟨hlines, hover'⟩ | hsuspended
  · exact Or.inl ⟨hlines, hover', hover'.atRest.tick.1, fun limit fuel => (hover'.atRest.run limit fuel).1⟩
  · exact Or.inr hsuspended

/-- A run that has failed in its first line. -/
def failedAtOnce : Machine := ((started "else log no\nlog hi").stretch 1).last

theorem failedAtOnce_reachable : failedAtOnce.Reachable := (started_reachable _).stretch 1

/-- Resuming it and delivering keys does not bring it back. -/
theorem failed_until_suspended_of_keys :
    ∃ k, failedAtOnce.Reachable ∧ failedAtOnce.mode = .failed ∧
      HostCall.performAll [.pause, .resume, .deliverKey "k", .tick, .run 1 none] failedAtOnce = some ([], k) ∧
      k.Over := by
  let calls : List HostCall := [.pause, .resume, .deliverKey "k", .tick, .run 1 none]
  have hchecks : failedAtOnce.mode = .failed ∧ (HostCall.performAll calls failedAtOnce).isSome = true := by
    decide +kernel
  obtain ⟨⟨lines, k⟩, hk⟩ := Option.isSome_iff_exists.mp hchecks.2
  have hcalls : ∀ c ∈ calls, c.renews = false := by simp [calls, HostCall.renews]
  rcases failed_until_suspended failedAtOnce_reachable hchecks.1 hcalls hk with
    ⟨rfl, hover, -⟩ | ⟨before, text, after, l, l', hsplit, -⟩
  · exact ⟨k, failedAtOnce_reachable, hchecks.1, hk, hover⟩
  · -- No line of the host is among these calls.
    have hmem : HostCall.execute text ∈ calls := by simp [hsplit]
    simp [calls] at hmem

/-- A line of the host lets a run that has failed wait for a key, and behind the key its line is executed again. -/
theorem failed_run_executes_again : ∃ m calls k, m.Reachable ∧ m.mode = .failed ∧
    (∀ c ∈ calls, c.renews = false) ∧ HostCall.performAll calls m = some ([0], k) := by
  let calls : List HostCall := [.execute "awaitkey", .deliverKey "k", .tick]
  have hchecks : failedAtOnce.mode = .failed ∧
      (HostCall.performAll calls failedAtOnce).map Prod.fst = some [0] := by
    decide +kernel
  obtain ⟨⟨lines, k⟩, hk, rfl⟩ := Option.map_eq_some_iff.mp hchecks.2
  exact ⟨failedAtOnce, calls, k, failedAtOnce_reachable, hchecks.1, by simp [calls, HostCall.renews], hk⟩

/-! ## Saved waits -/

/-- A wait is saved at most while the run is paused. -/
def SavesWhilePaused (m : Machine) : Prop := m.savedWait ≠ none → m.mode = .paused

theorem SavesWhilePaused.of_none {m : Machine} (h : m.savedWait = none) : m.SavesWhilePaused :=
  fun hsaved => absurd h hsaved

theorem SavesWhilePaused.savedWait {m : Machine} (h : m.SavesWhilePaused) (hmode : m.mode ≠ .paused) : m.savedWait = none := by
  by_contra hsaved
  exact hmode (h hsaved)

theorem SavesWhilePaused.of_stage {m k : Machine} (h : m.SavesWhilePaused)
    (hk : k.mode = m.mode ∧ k.savedWait = m.savedWait) : k.SavesWhilePaused := by
  unfold SavesWhilePaused
  rw [hk.1, hk.2]
  exact h

/-- No move changes that: it starts with no wait saved, and it saves none. -/
theorem SavesWhilePaused.move {m : Machine} (hm : m.Plain) (h : m.SavesWhilePaused) {t : Stretch}
    (ht : m.advance = some t) : t.last.savedWait = none := by
  obtain ⟨hmode, hsame | hnone⟩ := (hm.move ht).stage
  · exact hsame.trans (h.savedWait hmode)
  · exact hnone

theorem SavesWhilePaused.stretch {m : Machine} (hm : m.Plain) (h : m.SavesWhilePaused) (n : Nat) :
    (m.stretch n).last.SavesWhilePaused := by
  have hboth : (m.stretch n).last.Plain ∧ (m.stretch n).last.SavesWhilePaused := by
    refine stretch_keeps (P := fun k => k.Plain ∧ k.SavesWhilePaused) ?_ ⟨hm, h⟩ n
    exact fun ⟨hk, hsaves⟩ hmove => ⟨hk.advance hmove, .of_none (hsaves.move hk hmove)⟩
  exact hboth.2

theorem SavesWhilePaused.run {m k : Machine} (hm : m.Reachable) (h : m.SavesWhilePaused) {fuel : Nat}
    {limit : Option Nat} {answer : Except Fault Nat} (hk : m.run fuel limit = some (answer, k)) :
    k.SavesWhilePaused := by
  obtain ⟨n, rfl⟩ := exists_stretch_run hm.avoidsExtensions hk
  exact h.stretch hm.plain n

theorem SavesWhilePaused.launch {m : Machine} (h : m.SavesWhilePaused) (hmode : m.mode ≠ .paused) :
    (Machine.launch m).2.savedWait = none := by
  rcases hl : Machine.launch m with ⟨answer, k⟩
  rcases launch_cases hl with ⟨f, -, -, rfl⟩ | ⟨-, -, rfl⟩
  · obtain ⟨events, hfail⟩ := fail_eq f { m with executing := none }
    show (fail f { m with executing := none }).savedWait = none
    rw [hfail]
    exact h.savedWait hmode
  · rfl

theorem SavesWhilePaused.resume {m : Machine} (h : m.SavesWhilePaused) : m.resume.SavesWhilePaused := by
  unfold Machine.resume
  split
  · exact .of_none rfl
  · exact h

theorem SavesWhilePaused.start {m k : Machine} (hm : m.Reachable) (h : m.SavesWhilePaused) {fuel : Nat}
    {answer : Except Fault Unit} (hk : m.start fuel = some (answer, k)) : k.SavesWhilePaused := by
  rcases start_cases hk with ⟨-, -, rfl⟩ | ⟨hmode, hl | ⟨s, result, hl, hrun, -⟩⟩
  · exact h.resume
  · have hlaunch := h.launch hmode
    rw [hl] at hlaunch
    exact .of_none hlaunch
  · have hlaunch := h.launch hmode
    have hs := hm.launch
    rw [hl] at hlaunch hs
    exact SavesWhilePaused.run hs (.of_none hlaunch) hrun

end Machine

/-- The host refuses a run that is paused a budget, or it puts a wait in the place of a pause; and there is a wait
saved. -/
def HostCall.disturbs (c : HostCall) (m k : Machine) : Prop :=
  m.savedWait ≠ none ∧ ((∃ fuel, c = .startWith fuel 0) ∨ ∃ text w, c = .execute text ∧ k.mode = .waiting w)

namespace Machine

/-- **Calls of the host keep waits saved only while the run is paused, but for those that disturb it.** -/
theorem SavesWhilePaused.perform {m k : Machine} (hm : m.Reachable) (h : m.SavesWhilePaused) {c : HostCall}
    {answer : Except Fault Unit} (hk : c.perform m = some (answer, k)) :
    k.SavesWhilePaused ↔ ¬ c.disturbs m k := by
  have hother : (∀ fuel, c ≠ .startWith fuel 0) → (∀ text, c ≠ .execute text) → ¬ c.disturbs m k := by
    rintro hstart hexecute ⟨-, ⟨fuel, hc⟩ | ⟨text, w, hc, -⟩⟩
    · exact hstart fuel hc
    · exact hexecute text hc
  cases c with
  | load text name =>
    refine iff_of_true ?_ (hother nofun nofun)
    obtain rfl : (Machine.load text name m).2 = k := congrArg Prod.snd (Option.some.inj hk)
    unfold Machine.load
    rw [bind_apply, ofExcept_apply]
    cases Script.ofText? text with
    | error f => exact h
    | ok script => exact .of_none rfl
  | start fuel => exact iff_of_true (h.start hm hk) (hother nofun nofun)
  | startWith fuel budget =>
    change m.startWith fuel budget = _ at hk
    unfold Machine.startWith at hk
    split_ifs at hk with hzero
    · -- The run has failed, and a wait that is saved stays so.
      cases hk
      subst hzero
      obtain ⟨events, hfail⟩ := fail_eq .zeroBudget m
      unfold SavesWhilePaused HostCall.disturbs
      rw [hfail]
      simp
    · refine iff_of_true ?_ (hother (fun fuel' hc => ?_) nofun)
      · exact SavesWhilePaused.start (hm.withBudget budget) h hk
      · cases hc
        exact hzero rfl
  | tick =>
    refine iff_of_true ?_ (hother nofun nofun)
    obtain rfl : (Machine.tick m).2 = k := congrArg Prod.snd (Option.some.inj hk)
    obtain ⟨n, hn⟩ := exists_stretch_tick hm.avoidsExtensions
    rw [hn]
    exact h.stretch hm.plain n
  | run fuel limit =>
    refine iff_of_true ?_ (hother nofun nofun)
    obtain ⟨⟨count, k'⟩, hrun, hsame⟩ := Option.map_eq_some_iff.mp hk
    cases hsame
    exact h.run hm hrun
  | pause =>
    refine iff_of_true ?_ (hother nofun nofun)
    cases hk
    unfold Machine.pause
    split
    · exact .of_none rfl
    · exact fun _ => rfl
    · exact h
  | resume =>
    cases hk
    exact iff_of_true h.resume (hother nofun nofun)
  | stop =>
    cases hk
    exact iff_of_true (.of_none rfl) (hother nofun nofun)
  | deliverKey key =>
    refine iff_of_true ?_ (hother nofun nofun)
    cases hk
    unfold Machine.deliverKey
    dsimp only
    split
    · rename_i hwait
      refine .of_none (h.savedWait fun hmode => ?_)
      change endsWait key m.mode = true at hwait
      rw [hmode] at hwait
      cases hwait
    · exact h
  | provide name value =>
    cases hk
    exact iff_of_true h (hother nofun nofun)
  | print message =>
    cases hk
    exact iff_of_true h (hother nofun nofun)
  | execute text =>
    have hwait : HostCall.disturbs (.execute text) m k ↔ m.savedWait ≠ none ∧ ∃ w, k.mode = .waiting w := by
      unfold HostCall.disturbs
      simp
    rw [hwait]
    rcases hm.plain.execute_stage (Option.some.inj hk) with ⟨hmode, hsaved⟩ | ⟨-, hsuspended, hsaved, -⟩ | ⟨hmode, hnone⟩
    · refine iff_of_true (h.of_stage ⟨hmode, hsaved⟩) ?_
      rintro ⟨hm', w, hw⟩
      rw [hmode, h hm'] at hw
      cases hw
    · unfold SavesWhilePaused
      rw [hsaved]
      rcases hsuspended with hpaused | ⟨w, hw⟩
      · simp [hpaused]
      · simp [hw]
    · refine iff_of_true (.of_none hnone) ?_
      rintro ⟨hm', w, hw⟩
      rcases hmode with hidle | hsame
      · rw [hidle] at hw
        cases hw
      · rw [hsame, h hm'] at hw
        cases hw

/-- The machines that hosts without extensions reach when no call disturbs a wait that is saved. -/
inductive Undisturbed : Machine → Prop
  | new (s : Settings) (search : Search) : Undisturbed (ofSettings s search)
  | call {m k : Machine} {answer : Except Fault Unit} (c : HostCall) : Undisturbed m →
      c.perform m = some (answer, k) → ¬ c.disturbs m k → Undisturbed k
  /-- A start with some budget, before the first move of the run. -/
  | launch {m : Machine} (n : Nat) : Undisturbed m → m.mode ≠ .paused →
      Undisturbed (Machine.launch (m.withBudget n)).2
  | move {m : Machine} {t : Stretch} : Undisturbed m → m.advance = some t → Undisturbed t.last

theorem Undisturbed.reachable {m : Machine} (h : m.Undisturbed) : m.Reachable := by
  induction h with
  | new s search => exact .new s search
  | call c _ hc _ ih => exact ih.perform hc
  | launch n _ _ ih => exact (ih.withBudget n).launch
  | move _ hmove ih => exact ih.move hmove

/-- **While nothing disturbs it, a wait is saved at most while the run is paused.** -/
theorem Undisturbed.savesWhilePaused {m : Machine} (h : m.Undisturbed) : m.SavesWhilePaused := by
  induction h with
  | new s search => exact .of_none rfl
  | call c hm hc hquiet ih => exact (ih.perform hm.reachable hc).mpr hquiet
  | @launch m n _ hmode ih => exact .of_none (SavesWhilePaused.launch (m := m.withBudget n) ih hmode)
  | move hm hmove ih => exact .of_none (ih.move hm.reachable.plain hmove)

/-- Quiet calls leave a run that is paused with no wait saved so. -/
theorem paused_performAll {calls : List HostCall} (hcalls : ∀ c ∈ calls, c.isQuiet = true) {m k : Machine}
    {lines : List Nat} (hmode : m.mode = .paused) (hsaved : m.savedWait = none)
    (h : HostCall.performAll calls m = some (lines, k)) : k.mode = .paused ∧ k.savedWait = none := by
  induction calls generalizing m lines with
  | nil =>
    cases h
    exact ⟨hmode, hsaved⟩
  | cons c rest ih =>
    obtain ⟨answer, m', later, hc, hrest, -⟩ := HostCall.performAll_cons h
    have hrests : m.AtRest := by
      refine ⟨?_, fun w => ?_⟩ <;> rw [hmode] <;> nofun
    obtain ⟨-, hmode', hsaved'⟩ := hrests.perform (hcalls c List.mem_cons_self) hc
    exact ih (fun c' hc' => hcalls c' (List.mem_cons_of_mem _ hc')) (hmode'.trans hmode) (hsaved'.trans hsaved) hrest

/-- **Waits are saved while the run is paused.**  As long as nothing disturbs a wait that is saved, it is saved at
most while the run is paused; so a line of the script that pauses saves none, and the run is resumed behind it.  And
nothing but the two disturbances breaks this: a start of a paused run that is refused for its budget, and a line of
the host that waits while the run is paused. -/
theorem saved_wait_while_paused {m : Machine} (h : m.Undisturbed) :
    (m.savedWait ≠ none → m.mode = .paused) ∧
    (∀ k, m.Runs k → k.mode = .paused → ∀ calls lines l, (∀ c ∈ calls, c.isQuiet = true) →
      HostCall.performAll calls k = some (lines, l) → l.resume.mode = .running) ∧
    ∀ c answer k, HostCall.perform c m = some (answer, k) →
      ((k.savedWait ≠ none → k.mode = .paused) ↔ ¬ c.disturbs m k) := by
  have hsaves := h.savesWhilePaused
  refine ⟨hsaves, fun k hruns hmode calls lines l hcalls hl => ?_, fun c answer k hc => ?_⟩
  · have hsaved := hsaves.move h.reachable.plain hruns.2.2
    obtain ⟨hlast, hnone⟩ := paused_performAll hcalls hmode hsaved hl
    unfold Machine.resume
    rw [hlast, hnone]
    rfl
  · exact hsaves.perform h.reachable hc

theorem Undisturbed.stretch {m : Machine} (h : m.Undisturbed) (n : Nat) : (m.stretch n).last.Undisturbed :=
  stretch_keeps Undisturbed.move h n

theorem started_undisturbed (text : String) : (started text).Undisturbed := by
  have hload : (HostCall.load text "").perform (ofSettings {} noPatterns) =
      some ((load text "" (ofSettings {} noPatterns)).1, (load text "" (ofSettings {} noPatterns)).2) := rfl
  have hmode : (load text "" (ofSettings {} noPatterns)).2.mode = .idle := by
    unfold Machine.load
    rw [bind_apply, ofExcept_apply]
    cases Script.ofText? text <;> rfl
  refine (Undisturbed.call _ (.new {} _) hload fun h => h.1 rfl).launch _ ?_
  rw [hmode]
  nofun

/-- A script that counts ticks, and pauses behind them. -/
def countingThenPausing : Machine := started "pause 3\npause\nlog hi"

/-- The machine in its second line, the ticks having passed. -/
def aboutToPause : Machine := (countingThenPausing.stretch 4).last

/-- Behind its line that pauses the run is resumed, and no countdown comes back. -/
theorem saved_wait_while_paused_of_line :
    ∃ k, aboutToPause.Undisturbed ∧ aboutToPause.Runs k ∧ k.mode = .paused ∧ k.resume.mode = .running := by
  have hundisturbed : aboutToPause.Undisturbed := (started_undisturbed _).stretch 4
  have hchecks : aboutToPause.mode = .running ∧
      (aboutToPause.script.lines[aboutToPause.cursor]?).any aboutToPause.counts = true ∧
      (aboutToPause.stretch 1).faults.isEmpty = true ∧ (aboutToPause.stretch 1).last.mode = .paused := by
    decide +kernel
  obtain ⟨hmode, hline, hfaults, hpaused⟩ := hchecks
  have hruns := runs_stretch hmode hline hfaults
  obtain ⟨-, hresume, -⟩ := saved_wait_while_paused hundisturbed
  exact ⟨_, hundisturbed, hruns, hpaused, hresume _ hruns hpaused [] [] _ (by simp) rfl⟩

/-- While a countdown is paused a line of the host waits for a key.  The key comes, the script pauses, and the old
countdown is back. -/
theorem old_countdown_comes_back :
    ∃ m k : Machine, m.Reachable ∧ m.mode = .running ∧ m.savedWait = some (.ticks 3) ∧ m.Runs k ∧ k.mode = .paused ∧
      k.resume.mode = .waiting (.ticks 3) := by
  let paused := (countingThenPausing.stretch 1).last.pause
  let m := (Machine.execute "awaitkey" paused).2.deliverKey "k"
  have hchecks : m.mode = .running ∧ m.savedWait = some (.ticks 3) ∧
      (m.script.lines[m.cursor]?).any m.counts = true ∧ (m.stretch 1).faults.isEmpty = true ∧
      (m.stretch 1).last.mode = .paused ∧ (m.stretch 1).last.resume.mode = .waiting (.ticks 3) := by
    decide +kernel
  obtain ⟨hmode, hsaved, hline, hfaults, hpaused, hresumed⟩ := hchecks
  have hstart : countingThenPausing.Reachable := started_reachable _
  have hm : m.Reachable := ((hstart.stretch 1).pause.execute "awaitkey").deliverKey "k"
  exact ⟨m, _, hm, hmode, hsaved, runs_stretch hmode hline hfaults, hpaused, hresumed⟩

end Machine

end LineScript
