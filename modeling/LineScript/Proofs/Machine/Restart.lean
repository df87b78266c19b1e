/-
# Starting again

A start drops what an earlier run has made, so a run should not depend on what a machine ran before.  What outlives
the start is what a host has set up (`Machine.SameGround`), and besides that the events, the last key, the line of the
last report and the record of the arguments that have been warned about.  Machines that differ in those alone are
alike (`Machine.Alike`), and everything that a started machine does keeps them so (`hostCongruence_alike`,
`agree_perform`), as long as no extension goes by the last key.  Keywords that do not call back into the machine do not.

Main statements: runs of machines that have the same ground and have warned about the same arguments show the same
(`starts_show_the_same`), and in strict mode a warning that an earlier run has recorded makes a difference
(`recorded_warnings_show`).
-/
import LineScript.Proofs.Machine.Invariants

namespace LineScript

open Act

namespace Machine

/-! ## What is derived -/

/-- Strictness and the settings of the console follow from the script, the settings and the display name. -/
structure Derived (m : Machine) : Prop where
  strict : m.strict = m.script.notes.strict
  grouping : m.console.grouping = m.settings.groupMessages
  tag : m.console.tag = if m.settings.tagMessages then some m.displayName else none
  timestamps : m.console.timestamps = m.settings.timestampMessages

theorem Derived.withRegistry {m : Machine} (r : Registry) (hm : m.Derived) : Derived { m with registry := r } :=
  ⟨hm.strict, hm.grouping, hm.tag, hm.timestamps⟩

/-- Statements, requests and keywords of extensions keep them so. -/
theorem hostCongruence_derived : HostCongruence Eq fun m m' => m' = m ∧ m.Derived := by
  have hstatements : StatementCongruence fun m m' => m' = m ∧ m.Derived := by
    refine .of_kept (fun w hm => ?_) fun hm _ => ⟨hm.strict, hm.grouping, hm.tag, hm.timestamps⟩
    cases w <;> exact ⟨hm.strict, hm.grouping, hm.tag, hm.timestamps⟩
  exact (hstatements.toRequests fun _ hm => ⟨hm.strict, hm.grouping, hm.tag, hm.timestamps⟩).toHost
    Derived.withRegistry

theorem Derived.load {m : Machine} (hm : m.Derived) (text name : String) :
    (Machine.load text name m).2.Derived := by
  unfold Machine.load
  rw [bind_apply, ofExcept_apply]
  cases Script.ofText? text with
  | error f => exact hm
  | ok script =>
    dsimp only
    rw [modify_apply]
    dsimp only
    split_ifs with htags
    · exact ⟨rfl, hm.grouping, (if_pos htags).symm, hm.timestamps⟩
    · exact ⟨rfl, hm.grouping, hm.tag.trans ((if_neg htags).trans (if_neg htags).symm), hm.timestamps⟩

/-- **Hosts keep them so.** -/
theorem hostInvariant_derived : HostInvariant Derived where
  congruence := hostCongruence_derived.toCongruence
  line bound line :=
    hostCongruence_derived.agree_runLine (fun _ _ _ _ i => hostCongruence_derived.agree_invoke bound _ i) line
  load text name hm := hm.load text name
  hardReset hm := (hostCongruence_derived.hardReset ⟨rfl, hm⟩).2
  budget _ hm := ⟨hm.strict, hm.grouping, hm.tag, hm.timestamps⟩
  registry := Derived.withRegistry
  lastKey _ hm := ⟨hm.strict, hm.grouping, hm.tag, hm.timestamps⟩
  clock _ hm := ⟨hm.strict, hm.grouping, hm.tag, hm.timestamps⟩

theorem Visited.derived {m : Machine} (h : m.Visited) : m.Derived :=
  hostInvariant_derived.reachedBy (fun _ _ => ⟨rfl, rfl, rfl, rfl⟩) h

end Machine

/-! ## What keywords see -/

/-- Both see the same, but for the last key. -/
def Look.SameButKey (look look' : Look) : Prop := ∃ key, look' = { look with lastKey := key }

/-- No registered extension goes by the last key. -/
def Registry.Keyless (r : Registry) : Prop := ∀ e ∈ r.extensions, e.Respects Look.SameButKey

/-- Keywords that do not call back into the machine do not go by the last key, whatever they make of a statement. -/
theorem Registry.keyless_of_answer {r : Registry}
    (h : ∀ e ∈ r.extensions, ∃ result : Invocation → Except Fault Unit, ∀ i look, e.call i look = .answer (result i)) :
    r.Keyless := by
  intro e he
  obtain ⟨result, hresult⟩ := h e he
  exact Extension.respects_of_answer _ hresult

namespace Machine

/-! ## Warnings about types -/

/-- An argument of a registered keyword whose descriptor names no type, with its keyword. -/
def Untyped (keywords : Roster Owned) (pair : String × String) : Prop :=
  ∃ owned d, keywords.find? pair.1 = some owned ∧ d ∈ owned.descriptors ∧ d.typed = false ∧ pair.2 = d.name

/-- Strict machines that have warned about the same arguments. -/
def SameCautions (keywords : Roster Owned) (m m' : Machine) : Prop :=
  m.strict = true → ∀ pair, Untyped keywords pair → (pair ∈ m.warnedArguments ↔ pair ∈ m'.warnedArguments)

/-- The machine that remembers other events, another key and other warnings. -/
def remembering (events : Array Event) (key : Option String) (warned : List (String × String)) (m : Machine) :
    Machine :=
  { m with events := events, lastKey := key, warnedArguments := warned }

/-- The machine that has warned about one more argument. -/
def noting (pair : String × String) (m : Machine) : Machine :=
  { m with warnedArguments := m.warnedArguments ++ [pair] }

/-- Machines with these keywords that differ at most in what they remember.  Their extensions do not go by the last
key. -/
structure Alike (keywords : Roster Owned) (m m' : Machine) : Prop where
  same : ∃ events key warned, m' = m.remembering events key warned
  registered : m.registry.keywords = keywords
  cautions : SameCautions keywords m m'
  keyless : m.registry.Keyless

theorem congruence_alike (keywords : Roster Owned) : Congruence (Alike keywords) where
  looks := by
    rintro m m' ⟨⟨events, key, warned, rfl⟩, -, -, -⟩
    constructor <;> rfl
  write := by
    rintro m m' w ⟨⟨events, key, warned, rfl⟩, hkeywords, hcautions, hkeyless⟩
    cases w with
    | warnedArguments w => exact ⟨⟨events, key, w, rfl⟩, hkeywords, fun _ _ _ => Iff.rfl, hkeyless⟩
    | emit e => exact ⟨⟨events.push e, key, warned, rfl⟩, hkeywords, hcautions, hkeyless⟩
    | _ => exact ⟨⟨events, key, warned, rfl⟩, hkeywords, hcautions, hkeyless⟩

/-- Warning about the first argument, if that has not been done. -/
theorem warnUntyped_cons (keyword : String) (d : Descriptor) (rest : List Descriptor) (m : Machine) :
    warnUntyped keyword (d :: rest) m =
      if d.typed = false ∧ (keyword, d.name) ∉ m.warnedArguments then
        (warn (.untypedArgument d.name keyword) >>= fun _ => warnUntyped keyword rest) (m.noting (keyword, d.name))
      else warnUntyped keyword rest m := by
  rw [warnUntyped, get_bind_apply]
  by_cases hnew : d.typed = false ∧ (keyword, d.name) ∉ m.warnedArguments
  · rw [if_pos hnew, if_pos (by simpa using hnew)]
    rfl
  · rw [if_neg hnew, if_neg (by simpa using hnew)]

/-- Machines that are not strict only remember their warnings. -/
theorem warnUntyped_lenient (keyword : String) (descriptors : List Descriptor) {m : Machine}
    (hm : m.strict = false) : ∃ events warned,
      warnUntyped keyword descriptors m = (.ok (), m.remembering events m.lastKey warned) := by
  induction descriptors generalizing m with
  | nil => exact ⟨m.events, m.warnedArguments, rfl⟩
  | cons d rest ih =>
    rw [warnUntyped_cons]
    split
    · have hwarn : ∃ e, warn (.untypedArgument d.name keyword) (m.noting (keyword, d.name)) =
          (.ok (), (m.noting (keyword, d.name)).emit e) := by
        rw [warn, get_bind_apply, if_neg (by simp [noting, hm])]
        exact ⟨_, rfl⟩
      obtain ⟨e, hwarn⟩ := hwarn
      rw [bind_of_ok hwarn]
      exact ih hm
    · exact ih hm

/-- Strict machines that have warned about the same arguments of a keyword warn about the same ones next. -/
theorem agree_warnUntyped_strict {keywords : Roster Owned} {keyword : String} {descriptors : List Descriptor}
    (huntyped : ∀ d ∈ descriptors, d.typed = false → Untyped keywords (keyword, d.name)) {m m' : Machine}
    (h : Alike keywords m m') (hm : m.strict = true) :
    (warnUntyped keyword descriptors m).1 = (warnUntyped keyword descriptors m').1 ∧
      Alike keywords (warnUntyped keyword descriptors m).2 (warnUntyped keyword descriptors m').2 := by
  induction descriptors with
  | nil => exact ⟨rfl, h⟩
  | cons d rest ih =>
    have hl := (congruence_alike keywords).looks h
    have hsame : (d.typed = false ∧ (keyword, d.name) ∉ m.warnedArguments) ↔
        (d.typed = false ∧ (keyword, d.name) ∉ m'.warnedArguments) :=
      and_congr_right fun htyped =>
        not_congr (h.cautions hm _ (huntyped d List.mem_cons_self htyped))
    rw [warnUntyped_cons, warnUntyped_cons]
    by_cases hnew : d.typed = false ∧ (keyword, d.name) ∉ m.warnedArguments
    · rw [if_pos hnew, if_pos (hsame.mp hnew)]
      -- the warning is a fault, and both machines remember it
      have hfault : ∀ k : Machine, k.strict = true →
          (warn (.untypedArgument d.name keyword) >>= fun _ => warnUntyped keyword rest)
              (k.noting (keyword, d.name)) =
            (.error (.strict (.untypedArgument d.name keyword)), k.noting (keyword, d.name)) := by
        intro k hk
        refine bind_of_error ?_
        rw [warn, get_bind_apply, if_pos (by simpa [noting] using hk)]
        rfl
      rw [hfault m hm, hfault m' (hl.strict.trans hm)]
      obtain ⟨⟨events, key, warned, rfl⟩, hkeywords, hcautions, hkeyless⟩ := h
      refine ⟨rfl, ⟨events, key, warned ++ [(keyword, d.name)], rfl⟩, hkeywords, fun _ pair hpair => ?_, hkeyless⟩
      exact List.mem_append.trans ((or_congr_left (hcautions hm pair hpair)).trans List.mem_append.symm)
    · rw [if_neg hnew, if_neg (mt hsame.mpr hnew)]
      exact ih fun d' hd' => huntyped d' (List.mem_cons_of_mem _ hd')

/-- **Statements, requests and keywords of extensions keep machines alike.** -/
theorem hostCongruence_alike (keywords : Roster Owned) : HostCongruence Look.SameButKey (Alike keywords) where
  toCongruence := congruence_alike keywords
  contexts := by
    rintro m m' cs ⟨⟨events, key, warned, rfl⟩, hkeywords, hcautions, hkeyless⟩ -
    exact ⟨⟨events, key, warned, rfl⟩, hkeywords, hcautions, hkeyless⟩
  warned := by
    intro m m' keyword owned h hfound k k' hk
    cases hstrict : k.strict with
    | true =>
      refine agree_warnUntyped_strict (fun d hd htyped => ?_) hk hstrict
      exact ⟨owned, d, h.registered ▸ hfound, hd, htyped, rfl⟩
    | false =>
      obtain ⟨⟨events, key, warned, rfl⟩, hkeywords, -, hkeyless⟩ := hk
      obtain ⟨events₁, warned₁, hrun₁⟩ := warnUntyped_lenient keyword owned.descriptors hstrict
      have hstrict' : (k.remembering events key warned).strict = false := hstrict
      obtain ⟨events₂, warned₂, hrun₂⟩ := warnUntyped_lenient keyword owned.descriptors hstrict'
      rw [hrun₁, hrun₂]
      refine ⟨rfl, ⟨events₂, key, warned₂, rfl⟩, hkeywords, fun hk => ?_, hkeyless⟩
      exact absurd (hstrict.symm.trans hk) (by decide)
  budget := by
    rintro m m' ⟨⟨events, key, warned, rfl⟩, -, -, -⟩
    rfl
  registry := by
    rintro m m' r ⟨⟨events, key, warned, rfl⟩, hkeywords, hcautions, hkeyless⟩ hsame hextensions
    refine ⟨⟨events, key, warned, rfl⟩, hsame.trans hkeywords, hcautions, fun e he => hkeyless e ?_⟩
    rwa [← hextensions]
  lastKey := by
    rintro m m' key ⟨⟨events, _, warned, rfl⟩, hkeywords, hcautions, hkeyless⟩
    exact ⟨⟨events, some key, warned, rfl⟩, hkeywords, hcautions, hkeyless⟩
  look := by
    rintro m m' ⟨⟨events, key, warned, rfl⟩, -, -, -⟩
    exact ⟨key, rfl⟩
  respected h he := h.keyless _ he

/-! ## Starts -/

/-- What outlives a start is the same in both machines, and so is the time of day. -/
structure SameGround (m m' : Machine) : Prop where
  settings : m'.settings = m.settings
  search : m'.search = m.search
  script : m'.script = m.script
  loaded : m'.loaded = m.loaded
  displayName : m'.displayName = m.displayName
  budget : m'.budget = m.budget
  registry : m'.registry = m.registry
  globals : m'.symbols.globals.filter (·.hostOwned) = m.symbols.globals.filter (·.hostOwned)
  now : m'.console.now = m.console.now

/-- Machines that are alike, but for the line of the last report. -/
def AlikeOffLine (keywords : Roster Owned) (m m' : Machine) : Prop := Alike keywords m.offLine m'.offLine

theorem SameGround.checkStart {m m' : Machine} (h : m.SameGround m') : m'.checkStart = m.checkStart := by
  unfold Machine.checkStart
  rw [h.settings, h.script, h.loaded, h.registry]

/-- **Making ready leaves machines with the same ground alike.** -/
theorem SameGround.prepare {m m' : Machine} (h : m.SameGround m') (hm : m.Derived) (hm' : m'.Derived)
    (hkeyless : m.registry.Keyless) (hcautions : SameCautions m.registry.keywords m m') :
    AlikeOffLine m.registry.keywords m.prepare m'.prepare := by
  have hstrict : m'.strict = m.strict := by rw [hm.strict, hm'.strict, h.script]
  have hsymbols : m'.symbols.clear = m.symbols.clear := congrArg (fun g => ({ globals := g } : Symbols)) h.globals
  have hconsole : m'.console.clear = m.console.clear := by
    simp only [Console.clear, hm.grouping, hm'.grouping, hm.tag, hm'.tag, hm.timestamps, hm'.timestamps,
      h.settings, h.displayName, h.now]
  refine ⟨⟨m'.events, m'.lastKey, m'.warnedArguments, ?_⟩, rfl, hcautions, hkeyless⟩
  simp only [Machine.prepare, Machine.hardReset, Machine.rewind, offLine, remembering, hstrict, hsymbols, hconsole,
    h.settings, h.search, h.script, h.loaded, h.displayName, h.budget, h.registry]

/-! ## Signals -/

/-- What a host sends to a machine that it has started; meanwhile time passes. -/
inductive Signal
  | tick
  | pause
  | resume
  | deliverKey (key : String)
  | clock (now : TimeOfDay)

def Signal.perform : Signal → Act Unit
  | tick => Machine.tick
  | pause => modify Machine.pause
  | resume => modify Machine.resume
  | deliverKey key => modify (Machine.deliverKey key)
  | clock now => modify (Machine.atTime now)

/-- The answers of a sequence of signals, and the machine that they lead to. -/
def receive : List Signal → Machine → List (Except Fault Unit) × Machine
  | [], m => ([], m)
  | signal :: rest, m => ((signal.perform m).1 :: (receive rest (signal.perform m).2).1, (receive rest (signal.perform m).2).2)

theorem pause_offLine (m : Machine) : m.offLine.pause = m.pause.offLine := by
  unfold pause offLine
  dsimp only
  split <;> rfl

theorem resume_offLine (m : Machine) : m.offLine.resume = m.resume.offLine := by
  unfold resume offLine
  dsimp only
  split <;> rfl

theorem Alike.resume {keywords : Roster Owned} {m m' : Machine} (h : Alike keywords m m') :
    Alike keywords m.resume m'.resume := by
  obtain ⟨⟨events, key, warned, rfl⟩, hkeywords, hcautions, hkeyless⟩ := h
  have hresume : ∃ mode wait, m.resume = { m with mode := mode, savedWait := wait } ∧
      (m.remembering events key warned).resume =
        remembering events key warned { m with mode := mode, savedWait := wait } := by
    unfold Machine.resume remembering
    dsimp only
    split <;> exact ⟨_, _, rfl, rfl⟩
  obtain ⟨mode, wait, hleft, hright⟩ := hresume
  rw [hleft, hright]
  exact ⟨⟨events, key, warned, rfl⟩, hkeywords, hcautions, hkeyless⟩

/-- **Signals do the same on machines that are alike.** -/
theorem agree_perform (keywords : Roster Owned) (signal : Signal) :
    Agree (AlikeOffLine keywords) signal.perform signal.perform := by
  have hhost := hostCongruence_alike keywords
  cases signal with
  | tick => exact hhost.offLine.agree_tick hhost.agree_line_offLine
  | pause =>
    refine agree_modify fun m m' h => ?_
    unfold AlikeOffLine
    rw [← pause_offLine m, ← pause_offLine m']
    exact hhost.pause h
  | resume =>
    refine agree_modify fun m m' h => ?_
    unfold AlikeOffLine
    rw [← resume_offLine m, ← resume_offLine m']
    exact h.resume
  | deliverKey key =>
    refine agree_modify fun m m' h => ?_
    unfold AlikeOffLine
    rw [← deliverKey_offLine key m, ← deliverKey_offLine key m']
    exact hhost.deliverKey key h
  | clock now =>
    refine agree_modify fun m m' h => ?_
    obtain ⟨⟨events, key, warned, hsame⟩, hkeywords, hcautions, hkeyless⟩ := h
    exact ⟨⟨events, key, warned, congrArg (Machine.atTime now) hsame⟩, hkeywords, hcautions, hkeyless⟩

theorem AlikeOffLine.receive {keywords : Roster Owned} (signals : List Signal) {m m' : Machine}
    (h : AlikeOffLine keywords m m') : (m.receive signals).1 = (m'.receive signals).1 ∧
      AlikeOffLine keywords (m.receive signals).2 (m'.receive signals).2 := by
  induction signals generalizing m m' with
  | nil => exact ⟨rfl, h⟩
  | cons signal rest ih =>
    obtain ⟨hanswer, hnext⟩ := agree_perform keywords signal m m' h
    obtain ⟨hanswers, hlast⟩ := ih hnext
    exact ⟨congrArg₂ List.cons hanswer hanswers, hlast⟩

/-- A machine that has failed answers all signals and stays as it is. -/
theorem receive_of_failed (signals : List Signal) {m : Machine} (hm : m.mode = .failed) :
    (m.receive signals).1 = signals.map (fun _ => .ok ()) ∧ (m.receive signals).2.mode = .failed := by
  induction signals generalizing m with
  | nil => exact ⟨rfl, hm⟩
  | cons signal rest ih =>
    have hstep : (signal.perform m).1 = .ok () ∧ (signal.perform m).2.mode = .failed := by
      cases signal with
      | tick =>
        show (Machine.tick m).1 = _ ∧ (Machine.tick m).2.mode = _
        rw [tick_apply, hm]
        exact ⟨rfl, hm⟩
      | pause =>
        show _ ∧ m.pause.mode = _
        unfold Machine.pause
        rw [hm]
        exact ⟨rfl, hm⟩
      | resume =>
        show _ ∧ m.resume.mode = _
        unfold Machine.resume
        rw [hm]
        exact ⟨rfl, hm⟩
      | deliverKey key =>
        have hends : endsWait key m.mode = false := by rw [hm]; rfl
        show _ ∧ (m.deliverKey key).mode = _
        unfold Machine.deliverKey
        dsimp only
        rw [if_neg (by simp [hends])]
        exact ⟨rfl, hm⟩
      | clock now => exact ⟨rfl, hm⟩
    obtain ⟨hanswers, hlast⟩ := ih hstep.2
    exact ⟨congrArg₂ List.cons hstep.1 hanswers, hlast⟩

/-! ## Fresh starts -/

/-- Both machines show the same to a host. -/
structure ShowsLike (m m' : Machine) : Prop where
  mode : m'.mode = m.mode
  cursor : m'.cursor = m.cursor
  symbols : m'.symbols = m.symbols
  objects : m'.objects = m.objects
  console : m'.console = m.console
  lastReport : m'.lastReport = m.lastReport

theorem AlikeOffLine.showsLike {keywords : Roster Owned} {m m' : Machine} (h : AlikeOffLine keywords m m') :
    m.ShowsLike m' := by
  obtain ⟨⟨events, key, warned, hsame⟩, -, -, -⟩ := h
  exact ⟨congrArg (·.mode) hsame, congrArg (·.cursor) hsame, congrArg (·.symbols) hsame,
    congrArg (·.objects) hsame, congrArg (·.console) hsame, congrArg (·.lastReport) hsame⟩

/-- A start that nothing stands against leaves machines with the same ground alike, or runs on in both. -/
theorem SameGround.start {m m' : Machine} (h : m.SameGround m') (hm : m.Derived) (hm' : m'.Derived)
    (hkeyless : m.registry.Keyless) (hcautions : SameCautions m.registry.keywords m m') (hmode : m.mode ≠ .paused)
    (hmode' : m'.mode ≠ .paused) (hcheck : m.checkStart = .ok ()) (fuel : Nat) :
    (m.start fuel = none ∧ m'.start fuel = none) ∨ ∃ answer k k', m.start fuel = some (answer, k) ∧
      m'.start fuel = some (answer, k') ∧ AlikeOffLine m.registry.keywords k k' := by
  have hready := h.prepare hm hm' hkeyless hcautions
  have hhost := hostCongruence_alike m.registry.keywords
  rw [start_of_ready hmode hcheck, start_of_ready hmode' (h.checkStart.trans hcheck), h.settings]
  split
  · rcases hhost.offLine.runFrom hhost.agree_line_offLine none fuel hready with
      ⟨hnone, hnone'⟩ | ⟨answer, k, k', hrun, hrun', hlast⟩
    · exact Or.inl ⟨by rw [run, hnone]; rfl, by rw [run, hnone']; rfl⟩
    · exact Or.inr ⟨_, k, k', by rw [run, hrun]; rfl, by rw [run, hrun']; rfl, hlast⟩
  · exact Or.inr ⟨_, _, _, rfl, rfl, hready⟩

/-- **Fresh starts show the same**: machines of any host that have the same ground, and in strict mode have warned
about the same arguments, answer a start and all that follows in the same way and show the same, whatever they have
run before.  Keywords of extensions may do with a statement what they like, and ask the machine for more, as long as
they do not go by the last key.  A start that is refused is refused in both, and nothing that follows runs. -/
theorem starts_show_the_same {m m' : Machine} (hm : m.Visited) (hm' : m'.Visited) (hground : m.SameGround m')
    (hkeyless : m.registry.Keyless) (hmode : m.mode ≠ .paused) (hmode' : m'.mode ≠ .paused)
    (hcautions : SameCautions m.registry.keywords m m') (fuel : Nat) :
    (m.checkStart = .ok () → (m.start fuel = none ∧ m'.start fuel = none) ∨
      ∃ answer k k', m.start fuel = some (answer, k) ∧ m'.start fuel = some (answer, k') ∧
        ∀ signals, (k.receive signals).1 = (k'.receive signals).1 ∧ (k.receive signals).2.ShowsLike (k'.receive signals).2) ∧
    (∀ f, m.checkStart = .error f → ∃ k k', m.start fuel = some (.error f, k) ∧
      m'.start fuel = some (.error f, k') ∧ ∀ signals, (k.receive signals).1 = (k'.receive signals).1 ∧
        (k.receive signals).2.mode = .failed ∧ (k'.receive signals).2.mode = .failed) := by
  constructor
  · intro hcheck
    rcases hground.start hm.derived hm'.derived hkeyless hcautions hmode hmode' hcheck fuel with
      hnone | ⟨answer, k, k', hk, hk', halike⟩
    · exact Or.inl hnone
    · refine Or.inr ⟨answer, k, k', hk, hk', fun signals => ?_⟩
      obtain ⟨hanswers, hlast⟩ := halike.receive signals
      exact ⟨hanswers, hlast.showsLike⟩
  · intro f hcheck
    refine ⟨_, _, start_of_refused hmode hcheck fuel,
      start_of_refused hmode' (hground.checkStart.trans hcheck) fuel, fun signals => ?_⟩
    obtain ⟨hanswers, hlast⟩ := receive_of_failed signals (m := m.offLine.fail f) rfl
    obtain ⟨hanswers', hlast'⟩ := receive_of_failed signals (m := m'.offLine.fail f) rfl
    exact ⟨hanswers.trans hanswers'.symm, hlast, hlast'⟩

/-- The machine started, and ticked once. -/
def ranOnce (m : Machine) : Machine := (Machine.tick m.prepare).2

/-- Nothing stands against a start of the machine, and a start does not run to completion. -/
structure Ready (m : Machine) : Prop where
  mode : m.mode ≠ .paused
  check : m.checkStart = .ok ()
  stepwise : m.settings.runToCompletion = false

theorem ready_of_isOk {m : Machine} (hmode : m.mode ≠ .paused) (hok : m.checkStart.isOk = true)
    (hstepwise : m.settings.runToCompletion = false) : m.Ready := by
  refine ⟨hmode, ?_, hstepwise⟩
  cases h : m.checkStart with
  | ok x => rfl
  | error f =>
    rw [h] at hok
    cases hok

theorem Ready.start {m : Machine} (hm : m.Ready) (fuel : Nat) : m.start fuel = some (.ok (), m.prepare) := by
  rw [start_of_ready hm.mode hm.check, hm.stepwise]
  rfl

theorem Visited.ranOnce {m : Machine} (hm : m.Visited) (hready : m.Ready) : m.ranOnce.Visited :=
  .call .tick (.call (.start 0) hm rfl (hready.start 0)) rfl rfl

/-- A run goes on with the extensions that there are. -/
theorem keyless_ranOnce {m : Machine} (hm : m.registry.Keyless) : m.ranOnce.registry.Keyless := by
  have hself : AlikeOffLine m.registry.keywords m.prepare m.prepare :=
    ⟨⟨m.prepare.events, m.prepare.lastKey, m.prepare.warnedArguments, rfl⟩, rfl, fun _ _ _ => Iff.rfl, hm⟩
  exact (agree_perform m.registry.keywords .tick _ _ hself).2.keyless

/-- An extension whose one keyword has an argument without type and refuses b. -/
def untypedExtension : Extension where
  id := "e"
  keywords := [{ name := "kw", descriptors := [.untyped "a"] }]
  call i _ := .answer (if i.text? 0 = some "b" then .error (.raised .typing "b is no good") else .ok ())

/-- A strict script that uses the keyword has been loaded. -/
def strictMachine : Machine := (load "[strict]\nkw a" "" (withExtension untypedExtension (ofSettings {} noPatterns))).2

theorem strictMachine_visited : strictMachine.Visited :=
  .call (.load "[strict]\nkw a" "") (.withExtension (.new {} _) untypedExtension) rfl rfl

theorem strictMachine_keyless : strictMachine.registry.Keyless := by
  have hextensions : strictMachine.registry.extensions = [untypedExtension] := by
    rw [strictMachine, load_registry]
    rfl
  refine Registry.keyless_of_answer fun e he => ?_
  rw [hextensions, List.mem_singleton] at he
  exact ⟨_, fun i look => by rw [he]; rfl⟩

theorem strictMachine_ready : strictMachine.Ready :=
  ready_of_isOk (by decide +kernel) (by decide +kernel) (by decide +kernel)

theorem strictMachine_ranOnce_ready : strictMachine.ranOnce.Ready :=
  ready_of_isOk (by decide +kernel) (by decide +kernel) (by decide +kernel)

/-- Once the warning is recorded, all runs go the same way. -/
theorem starts_show_the_same_once_warned : ∃ m m' : Machine, m.strict = true ∧ m.Visited ∧ m'.Visited ∧
    m.SameGround m' ∧ m.registry.Keyless ∧ m.mode ≠ .paused ∧ m'.mode ≠ .paused ∧
    SameCautions m.registry.keywords m m' ∧
    ∃ answer k k', m.start 0 = some (answer, k) ∧ m'.start 0 = some (answer, k') ∧
      ∀ signals, (k.receive signals).1 = (k'.receive signals).1 ∧
        (k.receive signals).2.ShowsLike (k'.receive signals).2 := by
  have hvisited := strictMachine_visited.ranOnce strictMachine_ready
  have hready := strictMachine_ranOnce_ready
  have hkeyless := keyless_ranOnce strictMachine_keyless
  have hground : strictMachine.ranOnce.SameGround strictMachine.ranOnce.ranOnce :=
    ⟨rfl, rfl, rfl, rfl, rfl, rfl, rfl, rfl, rfl⟩
  have hstrict : strictMachine.ranOnce.strict = true := by decide +kernel
  have hmode' : strictMachine.ranOnce.ranOnce.mode ≠ .paused := by decide +kernel
  have hwarned : strictMachine.ranOnce.ranOnce.warnedArguments = strictMachine.ranOnce.warnedArguments := by
    decide +kernel
  have hcautions : SameCautions strictMachine.ranOnce.registry.keywords strictMachine.ranOnce
      strictMachine.ranOnce.ranOnce := by
    intro _ pair _
    rw [hwarned]
  refine ⟨strictMachine.ranOnce, strictMachine.ranOnce.ranOnce, hstrict, hvisited, hvisited.ranOnce hready, hground,
    hkeyless, hready.mode, hmode', hcautions, ?_⟩
  rcases (starts_show_the_same hvisited (hvisited.ranOnce hready) hground hkeyless hready.mode hmode' hcautions 0).1
    hready.check with ⟨hnone, -⟩ | hsame
  · rw [hready.start 0] at hnone
    cases hnone
  · exact hsame

/-- **Recorded warnings show**: the first run of a strict script fails at its warning, and the second does not. -/
theorem recorded_warnings_show : ∃ m m' k k' : Machine, m.Visited ∧ m'.Visited ∧ m.SameGround m' ∧
    m.registry.Keyless ∧ m.mode ≠ .paused ∧ m'.mode ≠ .paused ∧
    m.start 0 = some (.ok (), k) ∧ m'.start 0 = some (.ok (), k') ∧
    (k.receive [.tick]).1.map Except.isOk = [false] ∧ (k'.receive [.tick]).1.map Except.isOk = [true] ∧
    (k.receive [.tick]).2.mode = .failed ∧ (k'.receive [.tick]).2.mode = .finished := by
  have hground : strictMachine.SameGround strictMachine.ranOnce := ⟨rfl, rfl, rfl, rfl, rfl, rfl, rfl, rfl, rfl⟩
  have hfirst : (strictMachine.prepare.receive [.tick]).1.map Except.isOk = [false] ∧
      (strictMachine.prepare.receive [.tick]).2.mode = .failed := by decide +kernel
  have hsecond : (strictMachine.ranOnce.prepare.receive [.tick]).1.map Except.isOk = [true] ∧
      (strictMachine.ranOnce.prepare.receive [.tick]).2.mode = .finished := by decide +kernel
  exact ⟨strictMachine, strictMachine.ranOnce, strictMachine.prepare, strictMachine.ranOnce.prepare,
    strictMachine_visited, strictMachine_visited.ranOnce strictMachine_ready, hground, strictMachine_keyless,
    strictMachine_ready.mode, strictMachine_ranOnce_ready.mode, strictMachine_ready.start 0,
    strictMachine_ranOnce_ready.start 0, hfirst.1, hsecond.1, hfirst.2, hsecond.2⟩

end Machine

end LineScript
