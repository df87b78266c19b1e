/-
# Lines that are skipped

A script can ask to skip the statements of some keywords.  A line that begins with such a word changes nothing, on any
host and in the middle of any run, and leaves even the context that an `else` behind it looks at
(`ignored_line_changes_nothing`).  It is cut into tokens like any other line, though, before its first word is looked
at: a tail that is malformed, or that refers to a name without value, is a fault all the same (`ignored_line_fails`).

The context stays because a machine has exactly one level of contexts between its lines (`OneLevel`), so that there is
nothing to open for a line that does nothing, and nothing to close.
-/
import LineScript.Proofs.Machine.Keywords
import LineScript.Proofs.Machine.Invariants

namespace LineScript

open Act

namespace Machine

/-! ## One level of contexts -/

/-- There is one context, the one that the next line looks at. -/
def OneLevel (m : Machine) : Prop := m.contexts.length = 1

/-- Statements, requests and keywords of extensions leave some context. -/
theorem hostCongruence_levels : HostCongruence Eq fun m m' => m' = m ∧ m.contexts ≠ [] := by
  have hstatements : StatementCongruence fun m m' => m' = m ∧ m.contexts ≠ [] := by
    refine .of_kept (fun w hm => ?_) fun hm hchange => hchange.ne_nil hm
    cases w <;> exact hm
  exact (hstatements.toRequests fun _ hm => hm).toHost fun _ hm => hm

theorem OneLevel.nonempty {m : Machine} (hm : m.OneLevel) : m.contexts ≠ [] := by
  rw [← List.length_pos_iff, hm]
  exact Nat.one_pos

/-- The end of a line leaves one level of those that there are. -/
theorem oneLevel_closeLine {m : Machine} (hm : m.contexts ≠ []) : m.closeLine.OneLevel := by
  have hpos := List.length_pos_iff.mpr hm
  show (m.contexts.take 1).length = 1
  rw [List.length_take]
  omega

/-- On one level there is nothing to open for a line, and nothing to close. -/
theorem OneLevel.openContext_closeLine {m : Machine} (hm : m.OneLevel) : (m.openContext 0).closeLine = m := by
  have hopen : m.openContext 0 = m := if_neg (by rw [hm]; exact Nat.not_succ_le_zero 0)
  have hclose : m.contexts.take 1 = m.contexts := List.take_of_length_le (Nat.le_of_eq hm)
  rw [hopen, closeLine, hclose]
  rfl

/-- A line that begins on one level ends there. -/
theorem OneLevel.runLine {m : Machine} (hm : m.OneLevel) (bound : Nat) (line : String) :
    (Machine.runLine (invoke bound) line m).2.OneLevel := by
  cases htokens : tokenize m.registry.types (some (resolver m.symbols m.objects)) line with
  | error f =>
    rw [Machine.runLine, get_bind_apply, htokens]
    exact hm
  | ok tokens =>
    rw [runLine_apply _ htokens]
    have hlevels : Agree _ (runNested (invoke bound) tokens.length tokens 0)
        (runNested (invoke bound) tokens.length tokens 0) :=
      hostCongruence_levels.agree_runNested (fun _ _ _ _ i => hostCongruence_levels.agree_invoke bound _ i)
        tokens.length tokens 0
    exact oneLevel_closeLine (hlevels m m ⟨rfl, hm.nonempty⟩).2.2

/-- **Between lines there is one level of contexts, on any host.** -/
theorem hostInvariant_oneLevel : HostInvariant OneLevel where
  congruence := by
    refine .of_kept fun w hm => ?_
    cases w <;> exact hm
  line bound line := by
    rintro m m' ⟨rfl, hm⟩
    exact ⟨rfl, rfl, hm.runLine bound line⟩
  load {m} text name hm := by
    unfold Machine.load
    rw [bind_apply, ofExcept_apply]
    cases Script.ofText? text with
    | error f => exact hm
    | ok script => rfl
  hardReset _ := rfl
  budget _ hm := hm
  registry _ hm := hm
  lastKey _ hm := hm
  clock _ hm := hm

theorem Visited.oneLevel {m : Machine} (h : m.Visited) : m.OneLevel :=
  hostInvariant_oneLevel.reachedBy (fun _ _ => rfl) h

theorem Reachable.oneLevel {m : Machine} (h : m.Reachable) : m.OneLevel :=
  hostInvariant_oneLevel.reachable (fun _ _ => rfl) h

/-! ## Skipped lines -/

/-- On one level a line that begins with a word to skip changes nothing; it succeeds when it can be cut into tokens. -/
theorem OneLevel.runLine_of_ignored {m : Machine} (hm : m.OneLevel) {line keyword : String}
    (hfirst : firstWord? line = some keyword) (hlisted : keyword ∈ m.script.notes.ignored)
    (hword : (wordToken m.registry.types keyword).isWord = true) (inv : Invoke) :
    Machine.runLine inv line m =
      ((tokenize m.registry.types (some (resolver m.symbols m.objects)) line).map fun _ => none, m) := by
  cases htokens : tokenize m.registry.types (some (resolver m.symbols m.objects)) line with
  | error f =>
    rw [Machine.runLine, get_bind_apply, htokens]
    rfl
  | ok tokens =>
    obtain ⟨rest, rfl⟩ := tokens_of_firstWord hfirst htokens
    rw [Machine.runLine_of_ignored inv htokens (isIgnored_wordToken hlisted hword), hm.openContext_closeLine]
    rfl

/-- **Lines that the script asks to skip change nothing.**  Let a machine on any host, in the middle of a run or not,
have a script that asks to skip a word, and let no literal class make a string of the word.  A line that begins with it
leaves the machine as it is, with its contexts, and it succeeds if it can be cut into tokens, with a value for each
reference.  Then such a line under the cursor moves the cursor to the next line, and one of the host does nothing. -/
theorem ignored_line_changes_nothing {m : Machine} (hm : m.Visited) {line keyword : String}
    (hfirst : firstWord? line = some keyword) (hlisted : keyword ∈ m.script.notes.ignored)
    (hword : (wordToken m.registry.types keyword).isWord = true) :
    let tokens := tokenize m.registry.types (some (resolver m.symbols m.objects)) line
    (∀ (inv : Invoke) (executing : Option Nat), Machine.runLine inv line (m.withExecuting executing) =
      (tokens.map fun _ => none, m.withExecuting executing)) ∧
    (tokens.isOk = true →
      (m.mode = .running → m.symbols.declaring = none → m.script.lines[m.cursor]? = some line →
        m.advance = some ⟨[m.cursor], [], { m with executing := some m.cursor, cursor := m.cursor + 1 }⟩) ∧
      ∀ text, hostLine text = line → Machine.execute text m = (.ok (), { m with executing := none })) := by
  have hline : ∀ (inv : Invoke) (executing : Option Nat), Machine.runLine inv line (m.withExecuting executing) =
      ((tokenize m.registry.types (some (resolver m.symbols m.objects)) line).map fun _ => none,
        m.withExecuting executing) := fun inv executing =>
    OneLevel.runLine_of_ignored (m := m.withExecuting executing) hm.oneLevel hfirst hlisted hword inv
  refine ⟨hline, fun hok => ?_⟩
  have hskips : ∀ (inv : Invoke) (executing : Option Nat),
      Machine.runLine inv line (m.withExecuting executing) = (.ok none, m.withExecuting executing) := by
    intro inv executing
    rw [hline]
    cases htokens : tokenize m.registry.types (some (resolver m.symbols m.objects)) line with
    | error f =>
      rw [htokens] at hok
      cases hok
    | ok tokens => rfl
  have hstatement : isPassive line = false := not_passive_of_firstWord hfirst
  refine ⟨fun hmode hdeclaring hcursor => ?_, fun text htext => ?_⟩
  · have hcounts : m.counts line = true := by
      rw [counts, hstatement, hdeclaring]
      rfl
    exact advance_of_runLine hmode hcursor hcounts (hskips (invoke m.nesting) (some m.cursor))
  · have hrun : Machine.executeWith (invoke m.nesting) text m = (.ok (), m.withExecuting none) := by
      unfold executeWith
      rw [hostLine] at htext
      rw [htext, hstatement]
      exact bind_of_ok (hskips (invoke m.nesting) none)
    rw [execute_apply, hrun]
    rfl

/-- An `else` behind a line that is skipped still belongs to the condition before it. -/
theorem ignored_line_changes_nothing_before_else :
    let m := ((started "[ignore debug]\nif a = b log c\ndebug [~1|x] at all\nelse log d").stretch 2).last
    m.Visited ∧ m.level.canElse = true ∧
      m.advance = some ⟨[m.cursor], [], { m with executing := some m.cursor, cursor := m.cursor + 1 }⟩ := by
  intro m
  have hvisited : m.Visited := (ReachedBy.started _ rfl).stretch 2
  have hchecks : m.level.canElse = true ∧ firstWord? "debug [~1|x] at all" = some "debug" ∧
      "debug" ∈ m.script.notes.ignored ∧ (wordToken m.registry.types "debug").isWord = true ∧
      (tokenize m.registry.types (some (resolver m.symbols m.objects)) "debug [~1|x] at all").isOk = true ∧
      m.mode = .running ∧ m.symbols.declaring = none ∧
      m.script.lines[m.cursor]? = some "debug [~1|x] at all" := by
    decide +kernel
  obtain ⟨helse, hfirst, hlisted, hword, hok, hmode, hdeclaring, hcursor⟩ := hchecks
  exact ⟨hvisited, helse,
    ((ignored_line_changes_nothing hvisited hfirst hlisted hword).2 hok).1 hmode hdeclaring hcursor⟩

/-- A line begins with a word that the script asks to skip, and fails. -/
def FailsIgnored (m : Machine) (keyword line : String) : Prop :=
  keyword ∈ m.script.notes.ignored ∧ firstWord? line = some keyword ∧ m.symbols.declaring = none ∧
    (runLine (invoke m.nesting) line m).1.isOk = false

instance (m : Machine) (keyword line : String) : Decidable (m.FailsIgnored keyword line) :=
  inferInstanceAs (Decidable (_ ∧ _ ∧ _ ∧ _))

/-- **Lines to be skipped can fail**: when their tail is malformed, when it refers to a missing name, and when a literal
class makes a string of their first word. -/
theorem ignored_line_fails :
    (∃ m : Machine, m.Visited ∧ m.FailsIgnored "debug" "debug \"abc" ∧ m.FailsIgnored "debug" "debug \\missing\\") ∧
    ∃ m : Machine, m.Visited ∧ m.FailsIgnored "debug" "debug" := by
  let quoting : Extension := { id := "quoting", types := [⟨"string", true, (· == "debug")⟩] }
  let m := started "[ignore debug]"
  let m' := (load "[ignore debug]" "" (withExtension quoting (ofSettings {} noPatterns))).2
  have hfails : m.FailsIgnored "debug" "debug \"abc" ∧ m.FailsIgnored "debug" "debug \\missing\\" := by
    decide +kernel
  have hfails' : m'.FailsIgnored "debug" "debug" := by decide +kernel
  exact ⟨⟨m, ReachedBy.started _ rfl, hfails⟩,
    m', .call (.load "[ignore debug]" "") (.withExtension (.new {} _) quoting) rfl rfl, hfails'⟩

end Machine

end LineScript
