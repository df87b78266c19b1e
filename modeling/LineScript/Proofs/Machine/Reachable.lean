/-
# Machines that can be reached without extensions

`Machine.Reachable` holds of the machines that a host can get by loading, starting and driving scripts and by
its other calls, when it registers no extension.  Its steps are the calls of the host and the moves of a run;
ticks and whole runs are made of moves (`Reachable.tick`, `Reachable.run`, `Reachable.start`).

Main statement: in every such machine `else` is allowed behind a statement exactly when its keyword was `if`,
on every level (`Reachable.coherent`).
-/
import LineScript.Proofs.Machine.Driving
import LineScript.Machine.Host

namespace LineScript

open Act

/-! ## Coherent contexts -/

/-- `else` is allowed exactly behind `if`. -/
def Context.Coherent (c : Context) : Prop := c.canElse = true ↔ c.lastKeyword = some "if"

theorem Context.coherent_empty : ({} : Context).Coherent := by
  simp [Context.Coherent]

theorem Context.coherent_reset : ∀ c ∈ [({} : Context)], c.Coherent := by
  intro c hc
  rw [List.mem_singleton.mp hc]
  exact Context.coherent_empty

/-- The contexts of a machine are coherent. -/
def Machine.Coherent (m : Machine) : Prop := ∀ c ∈ m.contexts, c.Coherent

/-- A change of one level keeps coherence if it does so on this level. -/
theorem coherent_modify {cs : List Context} (h : ∀ c ∈ cs, c.Coherent) (depth : Nat)
    {f : Context → Context} (hf : ∀ c, c.Coherent → (f c).Coherent) :
    ∀ c ∈ cs.modify depth f, c.Coherent := by
  intro c hc
  obtain ⟨i, hi, rfl⟩ := List.getElem_of_mem hc
  rw [List.getElem_modify]
  have hlen : i < cs.length := by simpa using hi
  split
  · exact hf _ (h _ (List.getElem_mem hlen))
  · exact h _ (List.getElem_mem hlen)

/-- **All changes of contexts keep them coherent.** -/
theorem ContextChange.coherent {cs cs' : List Context} (h : ContextChange cs cs')
    (hcs : ∀ c ∈ cs, c.Coherent) : ∀ c ∈ cs', c.Coherent := by
  cases h with
  | opened =>
    intro c hc
    rcases List.mem_append.mp hc with hc | hc
    · exact hcs c hc
    · exact Context.coherent_reset c hc
  | decided depth satisfied => exact coherent_modify hcs depth fun c hc => hc
  | left depth keyword =>
    refine coherent_modify hcs depth fun c _ => ?_
    simp [Context.Coherent]
  | closed => exact fun c hc => hcs c (List.mem_of_mem_take hc)
  | reset => exact Context.coherent_reset

/-- Changes of contexts leave the outermost one there. -/
theorem ContextChange.ne_nil {cs cs' : List Context} (h : ContextChange cs cs') (hcs : cs ≠ []) :
    cs' ≠ [] := by
  cases h with
  | opened => exact List.append_ne_nil_of_left_ne_nil hcs _
  | decided depth satisfied => simpa using hcs
  | left depth keyword => simpa using hcs
  | closed => simpa using hcs
  | reset => exact List.cons_ne_nil _ _

/-! ## Plain machines -/

/-- No extension adds a keyword, and the contexts are coherent, the outermost one being there. -/
structure Machine.Plain (m : Machine) : Prop where
  keywords : m.registry.keywords.entries = []
  coherent : m.Coherent
  nonempty : m.contexts ≠ []

/-- Statements keep a machine plain. -/
theorem congruence_plain : StatementCongruence fun m m' => m' = m ∧ m.Plain := by
  refine .of_kept (fun w hm => ?_) fun hm hcs =>
    ⟨hm.keywords, hcs.coherent hm.coherent, hcs.ne_nil hm.nonempty⟩
  cases w <;> exact ⟨hm.keywords, hm.coherent, hm.nonempty⟩

namespace Machine

/-- A plain machine has no keyword that an extension could run. -/
theorem Plain.agree_invoke {m m' : Machine} (inv inv' : Invoke) (h : m' = m ∧ m.Plain)
    {keyword : String} {owned : Owned} (hfound : m.registry.keywords.find? keyword = some owned)
    (i : Invocation) :
    Agree (fun m m' => m' = m ∧ m.Plain) (inv owned.owner i) (inv' owned.owner i) := by
  rw [Roster.find?, h.2.keywords] at hfound
  cases hfound

theorem Plain.runCursorLine {m : Machine} (hm : m.Plain) (inv : Invoke) :
    (runCursorLine inv m).2.Plain :=
  (congruence_plain.agree_runCursorLine (Plain.agree_invoke inv inv) m m ⟨rfl, hm⟩).2.2

theorem Plain.fail {m : Machine} (hm : m.Plain) (f : Fault) : (m.fail f).Plain :=
  (congruence_plain.fail f ⟨rfl, hm⟩).2

theorem Plain.guarded {α : Type} {a : Act α} {m : Machine} (h : (a m).2.Plain) :
    (guarded a m).2.Plain := by
  rw [guarded_apply]
  cases (a m).1 with
  | ok x => exact h
  | error f => exact h.fail f

/-- A move keeps a machine plain. -/
theorem Plain.advance {m : Machine} (hm : m.Plain) {t : Stretch} (h : m.advance = some t) :
    t.last.Plain := by
  unfold Machine.advance at h
  split at h
  · cases h
    exact ⟨hm.keywords, hm.coherent, hm.nonempty⟩
  · split at h
    · cases h
      exact ⟨hm.keywords, hm.coherent, hm.nonempty⟩
    · split_ifs at h with hcounts
      · cases h
        exact Plain.guarded (hm.runCursorLine _)
      · cases h
        exact ⟨hm.keywords, hm.coherent, hm.nonempty⟩
  · cases h

theorem Plain.executeWith {m : Machine} (hm : m.Plain) (inv : Invoke) (text : String) :
    (executeWith inv text m).2.Plain := by
  have hagree : Agree (fun m m' => m' = m ∧ m.Plain) (Machine.executeWith inv text)
      (Machine.executeWith inv text) := by
    unfold Machine.executeWith
    dsimp only
    split
    · refine agree_bind (agree_modify fun _ _ h => congruence_plain.write (.executing none) h) fun _ =>
        agree_bind (congruence_plain.agree_runLine (Plain.agree_invoke inv inv) _) fun target => ?_
      cases target with
      | none => exact agree_pure _
      | some n => exact agree_modify fun _ _ h => congruence_plain.write (.cursor n) h
    · exact agree_pure _
  exact (hagree m m ⟨rfl, hm⟩).2.2

theorem execute_apply (text : String) (m : Machine) :
    execute text m = Machine.executeWith (invoke m.nesting) text m := by
  rw [execute, get_bind_apply]

theorem Plain.hardReset {m : Machine} (hm : m.Plain) : m.hardReset.Plain :=
  (congruence_plain.hardReset ⟨rfl, hm⟩).2

theorem load_registry (text name : String) (m : Machine) : (load text name m).2.registry = m.registry := by
  unfold Machine.load
  rw [bind_apply, ofExcept_apply]
  cases Script.ofText? text <;> rfl

/-! ## Reachable machines -/

/-- The machine at another time of day. -/
def atTime (now : TimeOfDay) (m : Machine) : Machine := { m with console := { m.console with now := now } }

/-- The machines that can be reached without extensions, by calls of the host and by moves of a run.  Meanwhile time
passes. -/
inductive Reachable : Machine → Prop
  | new (s : Settings) (search : Search) : Reachable (ofSettings s search)
  | load {m : Machine} (text name : String) : Reachable m → Reachable (Machine.load text name m).2
  | withBudget {m : Machine} (n : Nat) : Reachable m → Reachable (m.withBudget n)
  | launch {m : Machine} : Reachable m → Reachable (Machine.launch m).2
  | move {m : Machine} {t : Stretch} : Reachable m → m.advance = some t → Reachable t.last
  | execute {m : Machine} (text : String) : Reachable m → Reachable (Machine.execute text m).2
  /-- No budget is no start. -/
  | refuse {m : Machine} : Reachable m → Reachable (m.fail .zeroBudget)
  | pause {m : Machine} : Reachable m → Reachable m.pause
  | resume {m : Machine} : Reachable m → Reachable m.resume
  | stop {m : Machine} : Reachable m → Reachable m.stop
  | deliverKey {m : Machine} (key : String) : Reachable m → Reachable (m.deliverKey key)
  | provide {m : Machine} (name : String) (value : Value) :
      Reachable m → Reachable (m.provide name value)
  | print {m : Machine} (message : String) : Reachable m → Reachable (m.print message)
  | clock {m : Machine} (now : TimeOfDay) : Reachable m → Reachable (m.atTime now)

theorem plain_ofSettings (s : Settings) (search : Search) : (ofSettings s search).Plain :=
  ⟨rfl, Context.coherent_reset, List.cons_ne_nil _ _⟩

/-- **Reachable machines are plain**, since every step keeps them so. -/
theorem Reachable.plain {m : Machine} (h : m.Reachable) : m.Plain := by
  induction h with
  | new s search => exact plain_ofSettings s search
  | load text name _ ih =>
    unfold Machine.load
    rw [bind_apply, ofExcept_apply]
    cases Script.ofText? text with
    | error f => exact ih
    | ok script =>
      dsimp only
      rw [modify_apply]
      exact ⟨ih.keywords, Context.coherent_reset, List.cons_ne_nil _ _⟩
  | withBudget n _ ih => exact ⟨ih.keywords, ih.coherent, ih.nonempty⟩
  | @launch m _ ih =>
    unfold Machine.launch
    split
    · rename_i f _
      have hplain : Plain { m with executing := none } := ⟨ih.keywords, ih.coherent, ih.nonempty⟩
      exact hplain.fail f
    · exact ⟨ih.hardReset.keywords, ih.hardReset.coherent, ih.hardReset.nonempty⟩
  | move _ hmove ih => exact ih.advance hmove
  | execute text _ ih =>
    rw [execute_apply]
    exact ih.executeWith _ text
  | refuse _ ih => exact ih.fail .zeroBudget
  | pause _ ih =>
    unfold Machine.pause
    split <;> exact ⟨ih.keywords, ih.coherent, ih.nonempty⟩
  | resume _ ih =>
    unfold Machine.resume
    split <;> exact ⟨ih.keywords, ih.coherent, ih.nonempty⟩
  | stop _ ih => exact ⟨ih.hardReset.keywords, ih.hardReset.coherent, ih.hardReset.nonempty⟩
  | deliverKey key _ ih =>
    unfold Machine.deliverKey
    dsimp only
    split <;> exact ⟨ih.keywords, ih.coherent, ih.nonempty⟩
  | provide name value _ ih => exact ⟨ih.keywords, ih.coherent, ih.nonempty⟩
  | print message _ ih => exact ⟨ih.keywords, ih.coherent, ih.nonempty⟩
  | clock now _ ih => exact ⟨ih.keywords, ih.coherent, ih.nonempty⟩

/-- In a reachable machine `else` is allowed exactly behind `if`. -/
theorem Reachable.coherent {m : Machine} (h : m.Reachable) : m.Coherent := h.plain.coherent

theorem Reachable.avoidsExtensions {m : Machine} (h : m.Reachable) : m.AvoidsExtensions :=
  avoidsExtensions_of_keywords h.plain.keywords

/-! ## Starts -/

/-- A start is a launch, and a run if the settings say so. -/
theorem start_of_ready {m : Machine} (hmode : m.mode ≠ .paused) (hcheck : m.checkStart = .ok ()) (fuel : Nat) :
    m.start fuel =
      if m.settings.runToCompletion then (m.prepare.run fuel none).map fun (result, k) => (result.map fun _ => (), k)
      else some (.ok (), m.prepare) := by
  unfold Machine.start Machine.launch
  rw [if_neg hmode, hcheck]
  rfl

theorem start_of_refused {m : Machine} {f : Fault} (hmode : m.mode ≠ .paused) (hcheck : m.checkStart = .error f)
    (fuel : Nat) : m.start fuel = some (.error f, fail f { m with executing := none }) := by
  unfold Machine.start Machine.launch
  rw [if_neg hmode, hcheck]

/-- **What a launch does**: something stands against it, or it makes the machine ready. -/
theorem launch_cases {m k : Machine} {answer : Except Fault Unit} (h : launch m = (answer, k)) :
    (∃ f, m.checkStart = .error f ∧ answer = .error f ∧ k = fail f { m with executing := none }) ∨
      (m.checkStart = .ok () ∧ answer = .ok () ∧ k = m.prepare) := by
  unfold launch at h
  split at h
  · rename_i f hcheck
    cases h
    exact Or.inl ⟨f, hcheck, rfl, rfl⟩
  · rename_i hcheck
    cases h
    exact Or.inr ⟨hcheck, rfl, rfl⟩

/-- **What a start does**: it goes on after a halt, or it is a launch, behind which the script may run to its end. -/
theorem start_cases {m k : Machine} {fuel : Nat} {answer : Except Fault Unit}
    (h : m.start fuel = some (answer, k)) :
    (m.mode = .paused ∧ answer = .ok () ∧ k = m.resume) ∨
      m.mode ≠ .paused ∧ (launch m = (answer, k) ∨
        ∃ s result, launch m = (.ok (), s) ∧ s.run fuel none = some (result, k) ∧
          answer = result.map fun _ => ()) := by
  unfold start at h
  split_ifs at h with hmode
  · cases h
    exact Or.inl ⟨hmode, rfl, rfl⟩
  · refine Or.inr ⟨hmode, ?_⟩
    rcases hl : launch m with ⟨f | x, s⟩
    · rw [hl] at h
      cases h
      exact Or.inl rfl
    · rw [hl] at h
      dsimp only at h
      split_ifs at h
      · obtain ⟨⟨result, s'⟩, hrun, hsame⟩ := Option.map_eq_some_iff.mp h
        cases hsame
        exact Or.inr ⟨s, result, rfl, hrun, rfl⟩
      · cases h
        exact Or.inl rfl

/-! ## Ticks, runs and starts -/

theorem Reachable.stretch {m : Machine} (h : m.Reachable) (n : Nat) : (m.stretch n).last.Reachable :=
  stretch_keeps Reachable.move h n

/-- A tick is made of moves. -/
theorem Reachable.tick {m : Machine} (h : m.Reachable) : (Machine.tick m).2.Reachable := by
  obtain ⟨n, hn⟩ := exists_stretch_tick h.avoidsExtensions
  rw [hn]
  exact h.stretch n

/-- A run is made of moves. -/
theorem Reachable.run {m m' : Machine} {fuel : Nat} {limit : Option Nat} {answer : Except Fault Nat}
    (h : m.Reachable) (hrun : m.run fuel limit = some (answer, m')) : m'.Reachable := by
  obtain ⟨n, rfl⟩ := exists_stretch_run h.avoidsExtensions hrun
  exact h.stretch n

theorem Reachable.start {m m' : Machine} {fuel : Nat} {answer : Except Fault Unit} (h : m.Reachable)
    (hstart : m.start fuel = some (answer, m')) : m'.Reachable := by
  have hlaunch := h.launch
  rcases start_cases hstart with ⟨-, -, rfl⟩ | ⟨-, hl | ⟨s, result, hl, hrun, -⟩⟩
  · exact h.resume
  · rw [hl] at hlaunch
    exact hlaunch
  · rw [hl] at hlaunch
    exact hlaunch.run hrun

theorem Reachable.startWith {m m' : Machine} {fuel budget : Nat} {answer : Except Fault Unit}
    (h : m.Reachable) (hstart : m.startWith fuel budget = some (answer, m')) : m'.Reachable := by
  unfold Machine.startWith at hstart
  split_ifs at hstart with hzero
  · cases hstart
    exact h.refuse
  · exact (h.withBudget budget).start hstart

/-- A machine that has just started a script. -/
def started (text : String) : Machine := (launch (load text "" (ofSettings {} noPatterns)).2).2

theorem started_reachable (text : String) : (started text).Reachable :=
  ((Reachable.new {} _).load text "").launch

end Machine

end LineScript
