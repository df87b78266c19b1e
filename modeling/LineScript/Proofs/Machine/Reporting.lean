/-
# Reports of faults

A fault that ends a run leaves a report: what the fault was, the line that was running, and the calls that were
active.  The line comes from a field that every line of a run sets and that lines of the host and refused starts
clear, so that the report names the line that has failed.

Main statement: this is what starts, ticks and runs report (`fault_report`).  One refused start does not clear the
field: a start without budget reports the line that has run last (`refused_budget_reports_line`).
-/
import LineScript.Proofs.Machine.Atomicity
import LineScript.Proofs.Machine.Hosting
import LineScript.Proofs.Machine.Turn

namespace LineScript

open LineScript.Decimal

namespace Machine

/-! ## Reports -/

/-- The run has failed, and its report tells of a fault, a line and the active calls, the innermost first and each
with the line behind which it was made, counted from one. -/
structure Reports (k : Machine) (f : Fault) (line : Option Nat) : Prop where
  failed : k.mode = .failed
  report : ∃ r, k.lastReport = some r ∧ r.kind = f.kind ∧ r.message = f.message ∧ r.line = line ∧
    r.stack = k.symbols.calls.map fun frame =>
      s!"{frame.function} (called from line {naturalText (frame.returnLine + 1)})"

/-- A fault that ends a run is reported with the line that is running. -/
theorem reports_fail (m : Machine) (f : Fault) : (m.fail f).Reports f m.lineNumber := by
  obtain ⟨events, hfail⟩ := fail_eq f m
  rw [hfail]
  exact ⟨rfl, m.report f, rfl, rfl, rfl, rfl, rfl⟩

/-- A run fails on a line: it gets there, and the line fails.  The cursor is left on it, no call is made or left by
it, and the report names it. -/
def FailsOnLine (m : Machine) (f : Fault) (k : Machine) : Prop :=
  ∃ n, let l := (m.stretch n).last
    l.advance = some ⟨[l.cursor], [f], k⟩ ∧ k.cursor = l.cursor ∧ k.symbols.calls = l.symbols.calls ∧
      k.Reports f (some (k.cursor + 1))

/-- A start is refused before any line has run: nothing that the script has made is changed. -/
structure Refuses (m : Machine) (f : Fault) (line : Option Nat) (k : Machine) : Prop where
  symbols : k.symbols = m.symbols
  objects : k.objects = m.objects
  cursor : k.cursor = m.cursor
  reports : k.Reports f line

/-! ## Lines that fail -/

/-- **A move that fails leaves the cursor and the calls, and reports its line.** -/
theorem Move.reports {m k : Machine} {f : Fault} (h : m.Move ⟨[m.cursor], [f], k⟩) :
    k.cursor = m.cursor ∧ k.symbols.calls = m.symbols.calls ∧ k.Reports f (some (k.cursor + 1)) := by
  cases h with
  | failed line f k hmode hline hplace =>
    obtain ⟨events, hfail⟩ := fail_eq f k
    have hcursor : (k.fail f).cursor = m.cursor := by
      rw [hfail]
      exact hplace.cursor
    have hcalls : (k.fail f).symbols.calls = m.symbols.calls := by
      rw [hfail]
      exact hplace.calls
    have hline : k.lineNumber = some ((k.fail f).cursor + 1) := by
      unfold lineNumber
      rw [hcursor, hplace.executing]
      rfl
    refine ⟨hcursor, hcalls, ?_⟩
    rw [← hline]
    exact k.reports_fail f

/-- A stretch that fails does so on its last line. -/
theorem Reachable.failsOnLine {m k : Machine} (hm : m.Reachable) {n : Nat} {lines : List Nat} {f : Fault}
    (h : m.stretch n = ⟨lines, [f], k⟩) : m.FailsOnLine f k := by
  obtain ⟨j, hmove, -⟩ := hm.plain.stretch_fault h rfl
  exact ⟨j, hmove, ((hm.stretch j).plain.move hmove).reports⟩

theorem Reachable.run_failsOnLine {m k : Machine} (hm : m.Reachable) {fuel : Nat} {limit : Option Nat} {f : Fault}
    (h : m.run fuel limit = some (.error f, k)) : m.FailsOnLine f k := by
  obtain ⟨⟨n, -, hn⟩, -⟩ := runFrom_reaches fuel hm.avoidsExtensions h
  exact hm.failsOnLine hn

/-! ## Starts that fail -/

/-- A start that fails is refused, or it runs the script up to a line that fails. -/
theorem Reachable.start_reports {m k : Machine} (hm : m.Reachable) {fuel : Nat} {f : Fault}
    (h : m.start fuel = some (.error f, k)) : m.prepare.FailsOnLine f k ∨ m.Refuses f none k := by
  rcases start_cases h with ⟨-, hok, -⟩ | ⟨-, hl | ⟨s, result, hl, hrun, hresult⟩⟩
  · cases hok
  · rcases launch_cases hl with ⟨f', -, hsame, rfl⟩ | ⟨-, hok, -⟩
    · cases hsame
      have hreports := reports_fail { m with executing := none } f
      obtain ⟨events, hfail⟩ := fail_eq f { m with executing := none }
      refine Or.inr ⟨?_, ?_, ?_, hreports⟩ <;> rw [hfail]
    · cases hok
  · have hlaunch := hm.launch
    rcases launch_cases hl with ⟨f', -, hok, -⟩ | ⟨-, -, rfl⟩
    · cases hok
    · rw [hl] at hlaunch
      cases result with
      | ok count => cases hresult
      | error f' =>
        cases hresult
        exact Or.inl (hlaunch.run_failsOnLine hrun)

/-- **What faults report.**  In a machine reached without extensions, a tick or a run that fails does so on a line
that the report names, and so does a start that runs the script.  A start that is refused reports no line; but one
that is refused for its budget reports the line that has run last, if there is one. -/
theorem fault_report {m : Machine} (hm : m.Reachable) {f : Fault} {k : Machine} :
    (Machine.tick m = (.error f, k) → m.FailsOnLine f k) ∧
    (∀ fuel limit, m.run fuel limit = some (.error f, k) → m.FailsOnLine f k) ∧
    (∀ fuel, m.start fuel = some (.error f, k) → m.prepare.FailsOnLine f k ∨ m.Refuses f none k) ∧
    (∀ fuel budget, m.startWith fuel budget = some (.error f, k) →
      (budget ≠ 0 ∧ ((m.withBudget budget).prepare.FailsOnLine f k ∨ m.Refuses f none k)) ∨
        (budget = 0 ∧ f = .zeroBudget ∧ m.Refuses f m.lineNumber k)) := by
  refine ⟨fun h => ?_, fun fuel limit => hm.run_failsOnLine, fun fuel => hm.start_reports, fun fuel budget h => ?_⟩
  · obtain ⟨n, -, hn⟩ := tick_reaches hm.avoidsExtensions
    rw [tickStretch, h] at hn
    exact hm.failsOnLine hn
  · unfold Machine.startWith at h
    split_ifs at h with hzero
    · cases h
      obtain ⟨events, hfail⟩ := fail_eq .zeroBudget m
      refine Or.inr ⟨hzero, rfl, ⟨?_, ?_, ?_, m.reports_fail _⟩⟩ <;> rw [hfail]
    · refine Or.inl ⟨hzero, ?_⟩
      exact ((hm.withBudget budget).start_reports h).imp_right fun h => ⟨h.symbols, h.objects, h.cursor, h.reports⟩

/-- A call whose body fails in its first line. -/
def beforeFailingBody : Machine :=
  ((started "function f x:any\nelse log no\nend f\nexecute f a").stretch 4).last

/-- The report of a body that fails names its line and the line of the call. -/
theorem fault_report_of_body : ∃ f k, beforeFailingBody.Reachable ∧ Machine.tick beforeFailingBody = (.error f, k) ∧
    beforeFailingBody.FailsOnLine f k ∧
    k.lastReport.map (fun r => (r.line, r.stack)) = some (some 2, ["f (called from line 4)"]) := by
  have hm : beforeFailingBody.Reachable := (started_reachable _).stretch 4
  have hchecks : (Machine.tick beforeFailingBody).1.isOk = false ∧
      (Machine.tick beforeFailingBody).2.lastReport.map (fun r => (r.line, r.stack)) =
        some (some 2, ["f (called from line 4)"]) := by
    decide +kernel
  rcases htick : Machine.tick beforeFailingBody with ⟨f | x, k⟩
  · rw [htick] at hchecks
    exact ⟨f, k, hm, rfl, (fault_report hm).1 htick, hchecks.2⟩
  · rw [htick] at hchecks
    cases hchecks.1

/-- Behind a line that has run, a start without budget reports this line. -/
theorem refused_budget_reports_line : ∃ (m k : Machine) (f : Fault), m.Reachable ∧
    m.startWith 0 0 = some (.error f, k) ∧ k.lastReport.map (·.line) = some (some 1) := by
  let m := ((started "log a").stretch 1).last
  have hline : (m.fail .zeroBudget).lastReport.map (·.line) = some (some 1) := by
    decide +kernel
  exact ⟨m, m.fail .zeroBudget, .zeroBudget, (started_reachable _).stretch 1, rfl, hline⟩

end Machine

end LineScript
