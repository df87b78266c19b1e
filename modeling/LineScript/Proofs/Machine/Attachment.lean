/-
# Continuation lines reach their declaration

Whether a line may continue another goes by the outermost context, and what it then reaches by the open object and the
open class.  These are kept apart, and a statement that fails, or code nested in a statement, can change the one and not
the other.  To say what a continuation line should reach, a machine is given its history, the lines that were run on the
way to it (`Recorded`).  Such a line belongs to the latest statement that has succeeded and continues no other
(`latest?`).

* `Attached`: behind `object` the latest statement has declared the open object, and behind `class` the open class;
* `Attached.ended`: a line keeps this, whatever it does and however it ends;
* `Recorded.attached`: so it holds in all histories without extensions.

Main statement: a `#` line writes to the object that the latest statement has declared, and a `|` line by which a class
gains a property adds it to the class that the latest statement has declared (`continuation_lines_reach_declarations`).
A `#` line that the script asks to skip also succeeds, and it writes nothing (`skipped_property_line_reaches_nothing`).
-/
import LineScript.Proofs.Machine.Targets
import LineScript.Proofs.Machine.Instances
import LineScript.Proofs.Machine.Ignoring

namespace LineScript

open Act

/-! ## Lines that have been run -/

/-- A line, and the machine that it is run on. -/
structure LineRun where
  machine : Machine
  line : String

namespace LineRun

/-- How the line ends, and where that leads. -/
def ended (e : LineRun) : Except Fault (Option Nat) × Machine :=
  Machine.runLine (Machine.invoke e.machine.nesting) e.line e.machine

/-- The statement of the line. -/
def statement? (e : LineRun) : Option Statement := e.machine.statement? e.line

/-- Has a statement succeeded that is no continuation of another? -/
def leads (e : LineRun) : Bool := e.ended.1.isOk && e.statement?.any fun s => !transparent.contains s.keyword.text

/-- The line is an `object` statement, and this is the object that it has come to. -/
def DeclaresObject (e : LineRun) (id : Nat) : Prop :=
  ∃ s name className, e.statement? = some s ∧ s.keyword.text = "object" ∧
    (e.machine.invocation s).text 0 = .ok name ∧ Machine.classNamed (e.machine.invocation s) name = .ok className ∧
    e.machine.Obtains name className id e.ended.2.objects

/-- The line is a `class` statement, and this is the class that it has declared. -/
def DeclaresClass (e : LineRun) (className : String) : Prop :=
  ∃ s, e.statement? = some s ∧ s.keyword.text = "class" ∧ (e.machine.invocation s).text 0 = .ok className ∧
    e.machine.objects.declareClass className = .ok e.ended.2.objects

end LineRun

/-- The line that a continuation line belongs to: the latest that leads, the newest line being the first. -/
def latest? (es : List LineRun) : Option LineRun := es.find? (·.leads)

theorem latest?_cons_of_leads {e : LineRun} (h : e.leads = true) (es : List LineRun) : latest? (e :: es) = some e :=
  List.find?_cons_of_pos h

theorem latest?_cons_of_not_leads {e : LineRun} (h : e.leads = false) (es : List LineRun) :
    latest? (e :: es) = latest? es :=
  List.find?_cons_of_neg (by rw [h]; exact Bool.false_ne_true)

namespace Machine

/-- The line that a move runs, if it runs one. -/
def cursorRuns (m : Machine) : List LineRun :=
  match m.mode, m.script.lines[m.cursor]? with
  | .running, some line => if m.counts line then [⟨m.onLine, line⟩] else []
  | _, _ => []

/-- The line that a text of the host comes to, if it comes to one. -/
def hostRuns (m : Machine) (text : String) : List LineRun :=
  if isPassive (hostLine text) then [] else [⟨m.withExecuting none, hostLine text⟩]

/-- The machines that can be reached without extensions, with the lines that were run on the way, the newest first. -/
inductive Recorded : List LineRun → Machine → Prop
  | new (s : Settings) (search : Search) : Recorded [] (ofSettings s search)
  | load {es : List LineRun} {m : Machine} (text name : String) : Recorded es m →
      Recorded es (Machine.load text name m).2
  | withBudget {es : List LineRun} {m : Machine} (n : Nat) : Recorded es m → Recorded es (m.withBudget n)
  | launch {es : List LineRun} {m : Machine} : Recorded es m → Recorded es (Machine.launch m).2
  | move {es : List LineRun} {m : Machine} {t : Stretch} : Recorded es m → m.advance = some t →
      Recorded (m.cursorRuns ++ es) t.last
  | execute {es : List LineRun} {m : Machine} (text : String) : Recorded es m →
      Recorded (m.hostRuns text ++ es) (Machine.execute text m).2
  | refuse {es : List LineRun} {m : Machine} : Recorded es m → Recorded es (m.fail .zeroBudget)
  | pause {es : List LineRun} {m : Machine} : Recorded es m → Recorded es m.pause
  | resume {es : List LineRun} {m : Machine} : Recorded es m → Recorded es m.resume
  | stop {es : List LineRun} {m : Machine} : Recorded es m → Recorded es m.stop
  | deliverKey {es : List LineRun} {m : Machine} (key : String) : Recorded es m → Recorded es (m.deliverKey key)
  | provide {es : List LineRun} {m : Machine} (name : String) (value : Value) : Recorded es m →
      Recorded es (m.provide name value)
  | print {es : List LineRun} {m : Machine} (message : String) : Recorded es m → Recorded es (m.print message)
  | clock {es : List LineRun} {m : Machine} (now : TimeOfDay) : Recorded es m → Recorded es (m.atTime now)

variable {m k : Machine} {es : List LineRun} {e : LineRun}

theorem Recorded.reachable (h : Recorded es m) : m.Reachable := by
  induction h with
  | new s search => exact .new s search
  | load text name _ ih => exact ih.load text name
  | withBudget n _ ih => exact ih.withBudget n
  | launch _ ih => exact ih.launch
  | move _ hmove ih => exact ih.move hmove
  | execute text _ ih => exact ih.execute text
  | refuse _ ih => exact ih.refuse
  | pause _ ih => exact ih.pause
  | resume _ ih => exact ih.resume
  | stop _ ih => exact ih.stop
  | deliverKey key _ ih => exact ih.deliverKey key
  | provide name value _ ih => exact ih.provide name value
  | print message _ ih => exact ih.print message
  | clock now _ ih => exact ih.clock now

/-- All machines that can be reached have a history. -/
theorem Reachable.exists_recorded (h : m.Reachable) : ∃ es, Recorded es m := by
  induction h with
  | new s search => exact ⟨[], .new s search⟩
  | load text name _ ih => exact ih.imp fun _ hes => hes.load text name
  | withBudget n _ ih => exact ih.imp fun _ hes => hes.withBudget n
  | launch _ ih => exact ih.imp fun _ hes => hes.launch
  | move _ hmove ih =>
    obtain ⟨es, hes⟩ := ih
    exact ⟨_, hes.move hmove⟩
  | execute text _ ih =>
    obtain ⟨es, hes⟩ := ih
    exact ⟨_, hes.execute text⟩
  | refuse _ ih => exact ih.imp fun _ hes => hes.refuse
  | pause _ ih => exact ih.imp fun _ hes => hes.pause
  | resume _ ih => exact ih.imp fun _ hes => hes.resume
  | stop _ ih => exact ih.imp fun _ hes => hes.stop
  | deliverKey key _ ih => exact ih.imp fun _ hes => hes.deliverKey key
  | provide name value _ ih => exact ih.imp fun _ hes => hes.provide name value
  | print message _ ih => exact ih.imp fun _ hes => hes.print message
  | clock now _ ih => exact ih.imp fun _ hes => hes.clock now

/-! ## Declarations and their continuations -/

/-- What a `#` line that succeeds has done. -/
theorem ends_runProperty (i : Invocation) (depth : Nat) (m : Machine) :
    Ends (runProperty i depth) m (fun next k => next = .following ∧ ∃ id prop value o, m.openObject = some id ∧
      i.text 0 = .ok prop ∧ i.value 1 = .ok value ∧ m.objects.setProperty id prop value = .ok o ∧
      k = { m with objects := o }) fun _ _ => True := by
  refine ends_bind ((ends_context_same depth m).mono (fun _ _ h => h.2) fun _ _ _ => trivial) ?_
  rintro c _ rfl
  refine ends_get ?_
  split
  · rename_i id _ hid
    refine ends_ofExcept_bind (fun prop hprop => ?_) fun _ _ => trivial
    refine ends_ofExcept_bind (fun value hvalue => ?_) fun _ _ => trivial
    refine ends_bind ((ends_onObjects _ _).mono (fun _ _ h => h) fun _ _ _ => trivial) ?_
    rintro _ _ ⟨o, ho, rfl⟩
    exact ends_pure ⟨rfl, id, prop, value, o, hid, hprop, hvalue, ho, rfl⟩
  · exact ends_throw trivial

/-- What a `|` line that continues a class has done. -/
theorem ends_addProperty (i : Invocation) (m : Machine) :
    Ends (addProperty i) m (fun _ k => ∃ className prop value o, m.openClass = some className ∧
      i.text 0 = .ok prop ∧ i.value 1 = .ok value ∧ m.objects.addClassProperty className prop value = .ok o ∧
      k = { m with objects := o }) fun _ _ => True := by
  refine ends_ofExcept_bind (fun _ _ => ends_get ?_) fun _ _ => trivial
  split
  · rename_i className hclass
    refine ends_ofExcept_bind (fun prop hprop => ?_) fun _ _ => trivial
    refine ends_ofExcept_bind (fun value hvalue => ?_) fun _ _ => trivial
    refine (ends_onObjects _ _).mono ?_ fun _ _ _ => trivial
    rintro _ _ ⟨o, ho, rfl⟩
    exact ⟨className, prop, value, o, hclass, hprop, hvalue, ho, rfl⟩
  · exact ends_throw trivial

/-- What a `class` statement that succeeds has done. -/
theorem ends_runClass (i : Invocation) (m : Machine) :
    Ends (runClass i) m (fun next k => next = .following ∧ ∃ name o, i.text 0 = .ok name ∧
      m.objects.declareClass name = .ok o ∧ k = { m with objects := o, openClass := some name }) fun _ _ => True := by
  refine ends_ofExcept_bind (fun name hname => ?_) fun _ _ => trivial
  refine ends_bind ((ends_onObjects _ m).mono (fun _ _ h => h) fun _ _ _ => trivial) ?_
  rintro _ _ ⟨o, ho, rfl⟩
  exact ends_modify_bind (ends_pure ⟨rfl, name, o, hname, ho, rfl⟩)

section Dispatch

variable {inv : Invoke} {s : Statement} {next : Next}

/-- What the statement of a `#` line has done when it succeeds. -/
theorem Plain.dispatch_property_eq_ok (hm : m.Plain) (hmark : s.keyword.text = "#")
    (h : Machine.dispatch inv s 0 m = (.ok next, k)) :
    next = .following ∧ ∃ id prop value o, m.openObject = some id ∧ (m.invocation s).text 0 = .ok prop ∧
      (m.invocation s).value 1 = .ok value ∧ m.objects.setProperty id prop value = .ok o ∧
      k = { m with objects := o } := by
  obtain ⟨k', hrun, -, rfl⟩ :=
    hm.dispatch_builtin_eq_ok (b := .property) (by rw [hmark]; rfl) (by rw [hmark]; rfl) h
  rw [hmark, leaveContext_of_transparent k' rfl]
  exact (ends_runProperty _ 0 m).of_ok hrun

/-- What the statement of a `|` line behind a class has done when it succeeds. -/
theorem Plain.dispatch_classProperty_eq_ok (hm : m.Plain) (hbar : s.keyword.text = "|")
    (hclass : m.level.lastKeyword = some "class") (h : Machine.dispatch inv s 0 m = (.ok next, k)) :
    next = .following ∧ ∃ className prop value o, m.openClass = some className ∧
      (m.invocation s).text 0 = .ok prop ∧ (m.invocation s).value 1 = .ok value ∧
      m.objects.addClassProperty className prop value = .ok o ∧ k = { m with objects := o } := by
  obtain ⟨k', hrun, -, rfl⟩ :=
    hm.dispatch_builtin_eq_ok (b := .continuation) (by rw [hbar]; rfl) (by rw [hbar]; rfl) h
  have hcontinues := runContinuation_apply (i := m.invocation s) hm.getElem?_zero
  rw [hclass, if_neg (by simp), if_neg (by simp), if_pos rfl] at hcontinues
  obtain ⟨_, k'', hadd, hlast⟩ := bind_eq_ok (hcontinues.symm.trans hrun)
  cases hlast
  rw [hbar, leaveContext_of_transparent k' rfl]
  exact ⟨rfl, (ends_addProperty _ m).of_ok hadd⟩

/-- A `|` line behind anything else leaves no declaration in its place. -/
theorem Plain.dispatch_bar_level (hm : m.Plain) (hbar : s.keyword.text = "|")
    (hclass : m.level.lastKeyword ≠ some "class") (h : Machine.dispatch inv s 0 m = (.ok next, k)) :
    k.level.lastKeyword = some "if" ∨ k.level.lastKeyword = some "else" := by
  by_cases hif : m.level.lastKeyword = some "if"
  · obtain ⟨satisfied, hlevel, -⟩ := hm.dispatch_continuation hbar hif h
    rw [hlevel]
    exact Or.inl rfl
  · rw [hm.dispatch_continuation_other hbar hif h]
    by_cases helse : m.level.lastKeyword = some "else"
    · exact Or.inr helse
    · -- Nothing else is continued.
      obtain ⟨k', hrun, -⟩ :=
        hm.dispatch_builtin_eq_ok (b := .continuation) (by rw [hbar]; rfl) (by rw [hbar]; rfl) h
      have hcontinues := runContinuation_apply (i := m.invocation s) hm.getElem?_zero
      rw [if_neg hif, if_neg helse, if_neg hclass] at hcontinues
      cases hcontinues.symm.trans hrun

end Dispatch

/-! ## What continuation lines are attached to -/

/-- Behind `object`, the latest statement has declared the object that is open, and behind `class` the class. -/
structure Attached (es : List LineRun) (m : Machine) : Prop where
  toObject : m.level.lastKeyword = some "object" →
    ∃ d id, latest? es = some d ∧ d.DeclaresObject id ∧ m.openObject = some id
  toClass : m.level.lastKeyword = some "class" →
    ∃ d name, latest? es = some d ∧ d.DeclaresClass name ∧ m.openClass = some name

/-- Behind anything else there is nothing to show. -/
theorem attached_of_other (hobject : m.level.lastKeyword ≠ some "object")
    (hclass : m.level.lastKeyword ≠ some "class") : Attached es m :=
  ⟨fun h => absurd h hobject, fun h => absurd h hclass⟩

theorem attached_of_fresh (h : m.contexts = [{}]) : Attached es m := by
  have hlevel : m.level = {} := by rw [level, h]; rfl
  exact attached_of_other (by rw [hlevel]; simp) (by rw [hlevel]; simp)

theorem Attached.of_same (h : Attached es m) (hlevel : k.level = m.level) (hsame : m.SameTargets k) :
    Attached es k := by
  refine ⟨fun hobject => ?_, fun hclass => ?_⟩
  · rw [hlevel] at hobject
    rw [hsame.openObject]
    exact h.toObject hobject
  · rw [hlevel] at hclass
    rw [hsame.openClass]
    exact h.toClass hclass

theorem Attached.of_footing (h : Attached es m) (hsame : m.SameFooting k) : Attached es k :=
  h.of_same (by rw [level, level, hsame.contexts]) hsame.toSameTargets

/-- A line that does not lead counts for nothing. -/
theorem Attached.cons_of_not_leads (h : Attached es m) (he : e.leads = false) : Attached (e :: es) m := by
  refine ⟨fun hobject => ?_, fun hclass => ?_⟩
  · rw [latest?_cons_of_not_leads he]
    exact h.toObject hobject
  · rw [latest?_cons_of_not_leads he]
    exact h.toClass hclass

/-! ## Lines -/

/-- A line without statement changes nothing. -/
theorem OneLevel.runLine_of_none (hm : m.OneLevel) (inv : Invoke) {line : String} (hs : m.statement? line = none) :
    (Machine.runLine inv line m).2 = m := by
  cases htokens : tokenize m.registry.types (some (resolver m.symbols m.objects)) line with
  | error f =>
    rw [Machine.runLine, get_bind_apply, htokens]
    rfl
  | ok tokens =>
    cases tokens with
    | nil =>
      have hclose : m.closeLine = m := by
        rw [closeLine, List.take_of_length_le (Nat.le_of_eq hm)]
        rfl
      rw [runLine_apply inv htokens]
      exact hclose
    | cons first rest =>
      have hignored : m.isIgnored first = true := by
        by_contra hheeded
        rw [statement?, htokens] at hs
        dsimp only at hs
        rw [if_neg hheeded] at hs
        cases hs
      rw [Machine.runLine_of_ignored inv htokens hignored]
      exact hm.openContext_closeLine

/-- The code of a statement leaves the keyword that the outermost context remembers, or it resets the machine. -/
theorem Plain.follow_lastKeyword (hk : k.Plain) (inv : Invoke) (bound : Nat) (args : List Token) (next : Next) :
    (follow inv bound args 0 next k).2.level.lastKeyword = k.level.lastKeyword ∨
      (follow inv bound args 0 next k).2.level.lastKeyword = none := by
  rcases h : follow inv bound args 0 next k with ⟨f | answer, inner⟩
  · left
    cases next with
    | following => cases h
    | line n => cases h
    | nested skip => rw [level_of_head? ((hk.runNested_error_head? inv bound _ 0).of_error h)]
  · rcases hk.follow_level h with hsame | ⟨-, -, hfresh⟩
    · exact Or.inl (by rw [hsame])
    · exact Or.inr (by rw [hfresh])

section Statements

variable {inv : Invoke} {line : String} {s : Statement} {step : Next} {next : Option Nat}

/-- A line ends as its statement does with its code. -/
theorem Plain.runLine_of_dispatch (hm : m.Plain) (hs : m.statement? line = some s)
    (hdispatch : Machine.dispatch inv s 0 m = (.ok step, k)) :
    ∃ bound, runLine inv line m =
      ((follow inv bound s.args 0 step k).1, (follow inv bound s.args 0 step k).2.closeLine) := by
  obtain ⟨bound, hrun⟩ := hm.runLine_of_statement inv hs
  refine ⟨bound, hrun.trans ?_⟩
  rw [finally_apply, bind_of_ok hdispatch]

/-- A statement with nothing to follow ends its line. -/
theorem Plain.runLine_of_following (hm : m.Plain) (hs : m.statement? line = some s)
    (hdispatch : Machine.dispatch inv s 0 m = (.ok .following, k)) : runLine inv line m = (.ok none, k.closeLine) := by
  obtain ⟨bound, hrun⟩ := hm.runLine_of_dispatch hs hdispatch
  exact hrun

/-- A statement that fails ends its line. -/
theorem Plain.runLine_of_dispatch_error (hm : m.Plain) (hs : m.statement? line = some s) {f : Fault}
    (hdispatch : Machine.dispatch inv s 0 m = (.error f, k)) : runLine inv line m = (.error f, k.closeLine) := by
  obtain ⟨bound, hrun⟩ := hm.runLine_of_statement inv hs
  rw [hrun, finally_apply, bind_of_error hdispatch]

/-- The statement of a line that succeeds has succeeded. -/
theorem Plain.dispatch_of_runLine (hm : m.Plain) (hs : m.statement? line = some s)
    (hok : runLine inv line m = (.ok next, k)) : ∃ step l, Machine.dispatch inv s 0 m = (.ok step, l) := by
  rcases hdispatch : Machine.dispatch inv s 0 m with ⟨f | step, l⟩
  · cases (hm.runLine_of_dispatch_error hs hdispatch).symm.trans hok
  · exact ⟨step, l, rfl⟩

/-- A `#` line that runs and succeeds writes to the open object. -/
theorem Plain.runLine_property (hm : m.Plain) (hs : m.statement? line = some s) (hmark : s.keyword.text = "#")
    (hok : runLine inv line m = (.ok next, k)) :
    m.level.lastKeyword = some "object" ∧ ∃ id prop value, m.openObject = some id ∧
      (m.invocation s).text 0 = .ok prop ∧ (m.invocation s).value 1 = .ok value ∧
      m.objects.setProperty id prop value = .ok k.objects := by
  obtain ⟨step, l, hdispatch⟩ := hm.dispatch_of_runLine hs hok
  obtain ⟨rfl, id, prop, value, o, hid, hprop, hvalue, hset, rfl⟩ := hm.dispatch_property_eq_ok hmark hdispatch
  cases (hm.runLine_of_following hs hdispatch).symm.trans hok
  exact ⟨(hm.dispatch_property hmark hdispatch).2, id, prop, value, hid, hprop, hvalue, hset⟩

/-- A `|` line by which a class gains a property adds it to the open class. -/
theorem Plain.runLine_classProperty (hm : m.Plain) (hlevel : m.OneLevel) (hs : m.statement? line = some s)
    (hbar : s.keyword.text = "|") (hok : runLine inv line m = (.ok next, k)) {className prop : String}
    (hgained : k.objects.HasDefault className prop) (hnew : ¬ m.objects.HasDefault className prop) :
    m.level.lastKeyword = some "class" ∧ ∃ value, m.openClass = some className ∧
      (m.invocation s).text 0 = .ok prop ∧ (m.invocation s).value 1 = .ok value ∧
      m.objects.addClassProperty className prop value = .ok k.objects := by
  have hclass : m.level.lastKeyword = some "class" := by
    by_contra hother
    exact hnew ((hm.gainsNothing_runLine hlevel inv hs hother).of_ok hok className prop hgained)
  obtain ⟨step, l, hdispatch⟩ := hm.dispatch_of_runLine hs hok
  obtain ⟨rfl, name, prop', value, o, hname, hprop, hvalue, hadd, rfl⟩ :=
    hm.dispatch_classProperty_eq_ok hbar hclass hdispatch
  cases (hm.runLine_of_following hs hdispatch).symm.trans hok
  rcases Objects.HasDefault.of_addClassProperty hadd hgained with hhad | ⟨rfl, rfl⟩
  · exact absurd hhad hnew
  · exact ⟨hclass, value, hname, hprop, hvalue, hadd⟩

end Statements

/-! ## Attachment along a line -/

section Ended

variable {s : Statement} {next : Next}

theorem not_leads_of_transparent (hs : e.statement? = some s) (hkeyword : transparent.contains s.keyword.text = true) :
    e.leads = false := by
  rw [LineRun.leads, hs, Option.any_some, hkeyword, Bool.not_true, Bool.and_false]

theorem leads_of_ended (hs : e.statement? = some s) (hkeyword : transparent.contains s.keyword.text = false)
    {answer : Option Nat} (hended : e.ended = (.ok answer, k)) : e.leads = true := by
  rw [LineRun.leads, hs, Option.any_some, hkeyword, hended]
  rfl

/-- An `object` statement attaches the lines behind it to its object. -/
theorem attached_of_object (hm : e.machine.Plain) (hs : e.statement? = some s) (hobject : s.keyword.text = "object")
    (hdispatch : dispatch (invoke e.machine.nesting) s 0 e.machine = (.ok next, k)) :
    Attached (e :: es) e.ended.2 := by
  have htransparent : transparent.contains s.keyword.text = false := by rw [hobject]; rfl
  have hlevel := (hm.dispatch_other htransparent hdispatch).1
  obtain ⟨k', hrun, -, rfl⟩ :=
    hm.dispatch_builtin_eq_ok (b := .newObject) (by rw [hobject]; rfl) (by rw [hobject]; rfl) hdispatch
  obtain ⟨name, className, id, o, symbols, hname, hclass, hobtains, -, rfl, rfl⟩ := (ends_runObject _ _).of_ok hrun
  have hended : e.ended = _ := hm.runLine_of_following hs hdispatch
  have hdeclares : e.DeclaresObject id := by
    refine ⟨s, name, className, hs, hobject, hname, hclass, ?_⟩
    rw [hended]
    show e.machine.Obtains name className id (leaveContext s.keyword.text 0 _).objects
    rw [leaveContext_objects]
    exact hobtains
  have hlatest := latest?_cons_of_leads (leads_of_ended hs htransparent hended) es
  rw [hended]
  refine ⟨fun _ => ⟨e, id, hlatest, hdeclares, ?_⟩, fun h => ?_⟩
  · exact (sameTargets_leaveContext s.keyword.text 0 _).openObject
  · rw [closeLine_level, hlevel, hobject] at h
    simp at h

/-- A `class` statement attaches the lines behind it to its class. -/
theorem attached_of_class (hm : e.machine.Plain) (hs : e.statement? = some s) (hclass : s.keyword.text = "class")
    (hdispatch : dispatch (invoke e.machine.nesting) s 0 e.machine = (.ok next, k)) :
    Attached (e :: es) e.ended.2 := by
  have htransparent : transparent.contains s.keyword.text = false := by rw [hclass]; rfl
  have hlevel := (hm.dispatch_other htransparent hdispatch).1
  obtain ⟨k', hrun, -, rfl⟩ :=
    hm.dispatch_builtin_eq_ok (b := .newClass) (by rw [hclass]; rfl) (by rw [hclass]; rfl) hdispatch
  obtain ⟨rfl, name, o, hname, hdeclare, rfl⟩ := (ends_runClass _ _).of_ok hrun
  have hended : e.ended = _ := hm.runLine_of_following hs hdispatch
  have hdeclares : e.DeclaresClass name := by
    refine ⟨s, hs, hclass, hname, ?_⟩
    rw [hended]
    show e.machine.objects.declareClass name = Except.ok (leaveContext s.keyword.text 0 _).objects
    rw [leaveContext_objects]
    exact hdeclare
  have hlatest := latest?_cons_of_leads (leads_of_ended hs htransparent hended) es
  rw [hended]
  refine ⟨fun h => ?_, fun _ => ⟨e, name, hlatest, hdeclares, ?_⟩⟩
  · rw [closeLine_level, hlevel, hclass] at h
    simp at h
  · exact (sameTargets_leaveContext s.keyword.text 0 _).openClass

/-- A continuation that opens nothing leaves the lines behind it attached as they were. -/
theorem Attached.of_transparent (h : Attached es e.machine) (hm : e.machine.Plain) (hs : e.statement? = some s)
    (hkeyword : transparent.contains s.keyword.text = true)
    (hdispatch : dispatch (invoke e.machine.nesting) s 0 e.machine = (.ok .following, k))
    (hlevel : k.level = e.machine.level) (hsame : e.machine.SameTargets k) : Attached (e :: es) e.ended.2 := by
  have hstays := h.cons_of_not_leads (not_leads_of_transparent hs hkeyword)
  rw [LineRun.ended, hm.runLine_of_following hs hdispatch]
  exact hstays.of_same ((closeLine_level k).trans hlevel) ⟨hsame.openClass, hsame.openObject⟩

/-- A statement behind which neither an object nor a class is continued. -/
theorem attached_of_dispatch_other (hm : e.machine.Plain) (hs : e.statement? = some s)
    (hdispatch : dispatch (invoke e.machine.nesting) s 0 e.machine = (.ok next, k))
    (hobject : k.level.lastKeyword ≠ some "object") (hclass : k.level.lastKeyword ≠ some "class") :
    Attached (e :: es) e.ended.2 := by
  -- Its code may fail, and may open another object or class, but no declaration comes back by it.
  obtain ⟨bound, hrun⟩ := hm.runLine_of_dispatch hs hdispatch
  rw [LineRun.ended, hrun]
  rcases (hm.dispatch hdispatch).follow_lastKeyword (invoke e.machine.nesting) bound s.args next with hsame | hnone
  · exact attached_of_other (by rwa [closeLine_level, hsame]) (by rwa [closeLine_level, hsame])
  · exact attached_of_other (by rw [closeLine_level, hnone]; simp) (by rw [closeLine_level, hnone]; simp)

/-- A statement that succeeds keeps continuation lines attached. -/
theorem Attached.of_dispatch (h : Attached es e.machine) (hm : e.machine.Plain) (hs : e.statement? = some s)
    (hdispatch : dispatch (invoke e.machine.nesting) s 0 e.machine = (.ok next, k)) : Attached (e :: es) e.ended.2 := by
  -- The marks keep what there is, unless `|` continues conditions; any other keyword takes the place of the latest one.
  by_cases hmark : s.keyword.text = "#"
  · obtain ⟨rfl, id, prop, value, o, -, -, -, -, rfl⟩ := hm.dispatch_property_eq_ok hmark hdispatch
    exact h.of_transparent hm hs (by rw [hmark]; rfl) hdispatch rfl ⟨rfl, rfl⟩
  by_cases hbar : s.keyword.text = "|"
  · by_cases hclass : e.machine.level.lastKeyword = some "class"
    · obtain ⟨rfl, name, prop, value, o, -, -, -, -, rfl⟩ := hm.dispatch_classProperty_eq_ok hbar hclass hdispatch
      exact h.of_transparent hm hs (by rw [hbar]; rfl) hdispatch rfl ⟨rfl, rfl⟩
    · rcases hm.dispatch_bar_level hbar hclass hdispatch with hif | helse
      · exact attached_of_dispatch_other hm hs hdispatch (by rw [hif]; simp) (by rw [hif]; simp)
      · exact attached_of_dispatch_other hm hs hdispatch (by rw [helse]; simp) (by rw [helse]; simp)
  by_cases hobject : s.keyword.text = "object"
  · exact attached_of_object hm hs hobject hdispatch
  by_cases hclass : s.keyword.text = "class"
  · exact attached_of_class hm hs hclass hdispatch
  have hlevel := (hm.dispatch_other (by simp [transparent, hbar, hmark]) hdispatch).1
  exact attached_of_dispatch_other hm hs hdispatch (by rw [hlevel]; simpa using hobject)
    (by rw [hlevel]; simpa using hclass)

/-- **A line keeps continuation lines attached.** -/
theorem Attached.ended (h : Attached es e.machine) (hm : e.machine.Plain) (hlevel : e.machine.OneLevel) :
    Attached (e :: es) e.ended.2 := by
  cases hs : e.statement? with
  | none =>
    have hleads : e.leads = false := by rw [LineRun.leads, hs, Option.any_none, Bool.and_false]
    have hsame : e.ended.2 = e.machine := hlevel.runLine_of_none _ hs
    rw [hsame]
    exact h.cons_of_not_leads hleads
  | some s =>
    rcases hdispatch : dispatch (invoke e.machine.nesting) s 0 e.machine with ⟨f | next, k⟩
    · have hended : e.ended = (.error f, k.closeLine) := hm.runLine_of_dispatch_error hs hdispatch
      have hleads : e.leads = false := by rw [LineRun.leads, hended]; rfl
      have hsame := (hm.dispatch_error (invoke e.machine.nesting) s 0).of_error hdispatch
      rw [hended]
      exact ((h.cons_of_not_leads hleads).of_footing hsame).of_same (closeLine_level k) ⟨rfl, rfl⟩
    · exact h.of_dispatch hm hs hdispatch

end Ended

/-! ## Histories -/

theorem sameFooting_fail (f : Fault) (m : Machine) : m.SameFooting (m.fail f) := by
  obtain ⟨events, hfail⟩ := fail_eq f m
  rw [hfail]
  exact ⟨⟨rfl, rfl⟩, rfl⟩

/-- Behind the line of a move only the cursor moves, or the run ends with the fault. -/
theorem sameFooting_cursorLine {line : String} (hline : m.script.lines[m.cursor]? = some line) :
    (LineRun.ended ⟨m.onLine, line⟩).2.SameFooting (guarded (runCursorLine (invoke m.nesting)) m).2 := by
  rw [guarded_apply, runCursorLine_apply _ hline, bind_apply, LineRun.ended]
  show SameFooting (runLine (invoke m.nesting) line m.onLine).2 _
  rcases runLine (invoke m.nesting) line m.onLine with ⟨f | next, k⟩
  · exact sameFooting_fail f k
  · exact ⟨⟨rfl, rfl⟩, rfl⟩

/-- Behind a line of the host at most the cursor moves. -/
theorem sameFooting_hostLine {text : String} (h : isPassive (hostLine text) = false) :
    (LineRun.ended ⟨m.withExecuting none, hostLine text⟩).2.SameFooting (Machine.execute text m).2 := by
  let l := (LineRun.ended ⟨m.withExecuting none, hostLine text⟩).2
  have hline : Ends (runLine (invoke m.nesting) (hostLine text)) (m.withExecuting none)
      (fun _ k => l.SameFooting k) fun _ k => l.SameFooting k := ends_of_snd (P := l.SameFooting) (.refl l)
  have hends : Ends (Machine.execute text) m (fun _ k => l.SameFooting k) fun _ k => l.SameFooting k := by
    refine Ends.of_apply_eq ?_ (execute_apply text m)
    unfold executeWith
    dsimp only
    rw [← hostLine, h, Bool.not_false, if_pos rfl]
    refine ends_modify_bind (ends_bind hline fun next k hk => ?_)
    cases next with
    | none => exact ends_pure hk
    | some target => exact ends_modify ⟨⟨hk.openClass, hk.openObject⟩, hk.contexts⟩
  exact hends.snd

theorem Attached.move (h : Attached es m) (hm : m.Plain) (hlevel : m.OneLevel) {t : Stretch} (ht : m.advance = some t) :
    Attached (m.cursorRuns ++ es) t.last := by
  unfold advance at ht
  split at ht
  · rename_i left hmode
    cases ht
    have hruns : m.cursorRuns = [] := by rw [cursorRuns, hmode]
    rw [hruns]
    exact h.of_footing ⟨⟨rfl, rfl⟩, rfl⟩
  · rename_i hmode
    split at ht
    · rename_i hline
      cases ht
      have hruns : m.cursorRuns = [] := by rw [cursorRuns, hmode, hline]
      rw [hruns]
      exact h.of_footing ⟨⟨rfl, rfl⟩, rfl⟩
    · rename_i line hline
      have hruns : m.cursorRuns = if m.counts line then [⟨m.onLine, line⟩] else [] := by
        rw [cursorRuns, hmode, hline]
      rw [hruns]
      split_ifs at ht with hcounts
      · cases ht
        have hstart : Attached es m.onLine := h.of_footing ⟨⟨rfl, rfl⟩, rfl⟩
        rw [if_pos hcounts]
        exact (hstart.ended (e := ⟨m.onLine, line⟩) hm.onLine hlevel).of_footing (sameFooting_cursorLine hline)
      · cases ht
        rw [if_neg hcounts]
        exact h.of_footing ⟨⟨rfl, rfl⟩, rfl⟩
  · cases ht

theorem Attached.execute (h : Attached es m) (hm : m.Plain) (hlevel : m.OneLevel) (text : String) :
    Attached (m.hostRuns text ++ es) (Machine.execute text m).2 := by
  cases hpassive : isPassive (hostLine text) with
  | true =>
    have hsame : Machine.execute text m = (.ok (), m) := by
      rw [execute_apply, executeWith]
      rw [← hostLine, hpassive]
      rfl
    rw [hostRuns, hpassive, hsame]
    exact h
  | false =>
    have hstart : Attached es (m.withExecuting none) := h.of_footing ⟨⟨rfl, rfl⟩, rfl⟩
    have hplain : (m.withExecuting none).Plain := ⟨hm.keywords, hm.coherent, hm.nonempty⟩
    rw [hostRuns, hpassive]
    exact (hstart.ended (e := ⟨m.withExecuting none, hostLine text⟩) hplain hlevel).of_footing
      (sameFooting_hostLine hpassive)

/-- **In every history, continuation lines are attached to the declaration before them.** -/
theorem Recorded.attached (h : Recorded es m) : Attached es m := by
  induction h with
  | new s search => exact attached_of_fresh rfl
  | @load es m text name _ ih =>
    unfold Machine.load
    rw [bind_apply, ofExcept_apply]
    cases Script.ofText? text with
    | error f => exact ih
    | ok script => exact attached_of_fresh rfl
  | withBudget n _ ih => exact ih.of_footing ⟨⟨rfl, rfl⟩, rfl⟩
  | @launch es m _ ih =>
    unfold Machine.launch
    split
    · rename_i f _
      have hoff : Attached es { m with executing := none } := ih.of_footing ⟨⟨rfl, rfl⟩, rfl⟩
      exact hoff.of_footing (sameFooting_fail f _)
    · exact attached_of_fresh rfl
  | move hes hmove ih => exact ih.move hes.reachable.plain hes.reachable.oneLevel hmove
  | execute text hes ih => exact ih.execute hes.reachable.plain hes.reachable.oneLevel text
  | refuse _ ih => exact ih.of_footing (sameFooting_fail _ _)
  | pause _ ih =>
    unfold Machine.pause
    split <;> exact ih.of_footing ⟨⟨rfl, rfl⟩, rfl⟩
  | resume _ ih =>
    unfold Machine.resume
    split <;> exact ih.of_footing ⟨⟨rfl, rfl⟩, rfl⟩
  | stop _ ih => exact attached_of_fresh rfl
  | deliverKey key _ ih =>
    unfold Machine.deliverKey
    dsimp only
    split <;> exact ih.of_footing ⟨⟨rfl, rfl⟩, rfl⟩
  | provide name value _ ih => exact ih.of_footing ⟨⟨rfl, rfl⟩, rfl⟩
  | print message _ ih => exact ih.of_footing ⟨⟨rfl, rfl⟩, rfl⟩
  | clock now _ ih => exact ih.of_footing ⟨⟨rfl, rfl⟩, rfl⟩

/-! ## Continuation lines -/

/-- **Continuation lines reach the declaration that they follow.**  A machine that is reached without extensions has a
history.  Whatever the history, let a line of the script or of the host have a statement that is not to be skipped, and
let it succeed.

* If it is a `#` line, the latest statement is an `object` statement, and the line writes to the object that this
  statement has made or taken over.
* If it is a `|` line by which a class gains a property, the latest statement is a `class` statement, and the class is
  the one that it has declared.

The latest statement is the last one before the line that was not to be skipped, has succeeded, and was neither `#` nor
`|` (`latest?`). -/
theorem continuation_lines_reach_declarations (hm : m.Reachable) : (∃ es, Recorded es m) ∧
    ∀ es, Recorded es m → ∀ (executing : Option Nat) (line : String) (s : Statement) (next : Option Nat) (k : Machine),
      m.statement? line = some s → runLine (invoke m.nesting) line (m.withExecuting executing) = (.ok next, k) →
      (s.keyword.text = "#" → ∃ d id prop value, latest? es = some d ∧ d.DeclaresObject id ∧
        (m.invocation s).text 0 = .ok prop ∧ (m.invocation s).value 1 = .ok value ∧
        m.objects.setProperty id prop value = .ok k.objects) ∧
      (s.keyword.text = "|" → ∀ className prop, k.objects.HasDefault className prop →
        ¬ m.objects.HasDefault className prop → ∃ d value, latest? es = some d ∧ d.DeclaresClass className ∧
          (m.invocation s).text 0 = .ok prop ∧ (m.invocation s).value 1 = .ok value ∧
          m.objects.addClassProperty className prop value = .ok k.objects) := by
  refine ⟨hm.exists_recorded, fun es hes executing line s next k hs hok => ?_⟩
  have hplain : (m.withExecuting executing).Plain := ⟨hm.plain.keywords, hm.plain.coherent, hm.plain.nonempty⟩
  have hattached := hes.attached
  constructor
  · intro hmark
    obtain ⟨hobject, id, prop, value, hid, hprop, hvalue, hset⟩ := hplain.runLine_property hs hmark hok
    obtain ⟨d, id', hd, hdeclares, hid'⟩ := hattached.toObject hobject
    cases hid'.symm.trans hid
    exact ⟨d, id, prop, value, hd, hdeclares, hprop, hvalue, hset⟩
  · intro hbar className prop hgained hnew
    obtain ⟨hclass, value, hname, hprop, hvalue, hadd⟩ :=
      hplain.runLine_classProperty hm.oneLevel hs hbar hok hgained hnew
    obtain ⟨d, name, hd, hdeclares, hname'⟩ := hattached.toClass hclass
    cases hname'.symm.trans hname
    exact ⟨d, value, hd, hdeclares, hprop, hvalue, hadd⟩

/-- What can be checked of a line: its statement has this keyword, it succeeds, and `p` holds of where it leads. -/
def succeedsWith (m : Machine) (executing : Option Nat) (keyword line : String) (p : Machine → Bool) : Bool :=
  (m.statement? line).any (·.keyword.text == keyword) &&
    ((runLine (invoke m.nesting) line (m.withExecuting executing)).1.isOk &&
      p (runLine (invoke m.nesting) line (m.withExecuting executing)).2)

theorem exists_statement_of_succeedsWith {executing : Option Nat} {keyword line : String} {p : Machine → Bool}
    (h : m.succeedsWith executing keyword line p = true) :
    ∃ s next k, m.statement? line = some s ∧ s.keyword.text = keyword ∧
      runLine (invoke m.nesting) line (m.withExecuting executing) = (.ok next, k) ∧ p k = true := by
  rw [succeedsWith, Bool.and_eq_true, Bool.and_eq_true, Option.any_eq_true] at h
  obtain ⟨⟨s, hs, hkeyword⟩, hok, hp⟩ := h
  obtain ⟨next, hrun⟩ := ends_of_isOk hok
  exact ⟨s, next, _, hs, beq_iff_eq.mp hkeyword, hrun, hp⟩

/-- A script that makes another object in nested code, before the one that it goes on with. -/
def beforeProperty : Machine := ((started "object a\nif 1 = 1 object b\nobject c\n# p 1").stretch 3).last

/-- A script that goes on with a class behind a line that it asks to skip. -/
def beforeClassProperty : Machine := ((started "[ignore note]\nclass C\nnote this\n| p 1").stretch 3).last

/-- The lines reach the object that a line of the script has made, past one of nested code, and a class past a line that
is skipped. -/
theorem continuation_lines_reach_declarations_past_others :
    (∃ es s next k d id prop value, beforeProperty.Reachable ∧ Recorded es beforeProperty ∧
      beforeProperty.statement? "# p 1" = some s ∧ s.keyword.text = "#" ∧
      runLine (invoke beforeProperty.nesting) "# p 1" (beforeProperty.withExecuting (some 3)) = (.ok next, k) ∧
      latest? es = some d ∧ d.DeclaresObject id ∧ beforeProperty.objects.setProperty id prop value = .ok k.objects) ∧
    ∃ es s next k d value, beforeClassProperty.Reachable ∧ Recorded es beforeClassProperty ∧
      beforeClassProperty.statement? "| p 1" = some s ∧ s.keyword.text = "|" ∧
      runLine (invoke beforeClassProperty.nesting) "| p 1" (beforeClassProperty.withExecuting (some 3)) =
        (.ok next, k) ∧
      k.objects.HasDefault "C" "p" ∧ ¬ beforeClassProperty.objects.HasDefault "C" "p" ∧
      latest? es = some d ∧ d.DeclaresClass "C" ∧
      beforeClassProperty.objects.addClassProperty "C" "p" value = .ok k.objects := by
  constructor
  · have hm : beforeProperty.Reachable := (started_reachable _).stretch 3
    have hline : beforeProperty.succeedsWith (some 3) "#" "# p 1" (fun _ => true) = true := by decide +kernel
    obtain ⟨s, next, k, hs, hmark, hrun, -⟩ := exists_statement_of_succeedsWith hline
    obtain ⟨⟨es, hes⟩, hreaches⟩ := continuation_lines_reach_declarations hm
    obtain ⟨d, id, prop, value, hd, hdeclares, -, -, hset⟩ := (hreaches es hes (some 3) _ s next k hs hrun).1 hmark
    exact ⟨es, s, next, k, d, id, prop, value, hm, hes, hs, hmark, hrun, hd, hdeclares, hset⟩
  · have hm : beforeClassProperty.Reachable := (started_reachable _).stretch 3
    have hline : beforeClassProperty.succeedsWith (some 3) "|" "| p 1"
        (fun k => decide (k.objects.HasDefault "C" "p")) = true := by decide +kernel
    have hnew : ¬ beforeClassProperty.objects.HasDefault "C" "p" := by decide +kernel
    obtain ⟨s, next, k, hs, hbar, hrun, hgained⟩ := exists_statement_of_succeedsWith hline
    obtain ⟨⟨es, hes⟩, hreaches⟩ := continuation_lines_reach_declarations hm
    obtain ⟨d, value, hd, hdeclares, -, -, hadd⟩ :=
      (hreaches es hes (some 3) _ s next k hs hrun).2 hbar "C" "p" (of_decide_eq_true hgained) hnew
    exact ⟨es, s, next, k, d, value, hm, hes, hs, hbar, hrun, of_decide_eq_true hgained, hnew, hd, hdeclares, hadd⟩

/-- A script that asks to skip property lines. -/
def beforeSkipped : Machine := ((started "[ignore #]\nobject a\n# p 1").stretch 2).last

/-- **A property line that the script asks to skip succeeds and writes nothing**, though the latest statement declares
an object. -/
theorem skipped_property_line_reaches_nothing :
    ∃ es d next k, Recorded es beforeSkipped ∧ latest? es = some d ∧ d.DeclaresObject 0 ∧
      beforeSkipped.script.lines[beforeSkipped.cursor]? = some "# p 1" ∧
      runLine (invoke beforeSkipped.nesting) "# p 1" (beforeSkipped.withExecuting (some 2)) = (.ok next, k) ∧
      ∀ value, beforeSkipped.objects.setProperty 0 "p" value ≠ .ok k.objects := by
  obtain ⟨es, hes⟩ := ((started_reachable "[ignore #]\nobject a\n# p 1").stretch 2).exists_recorded
  have hchecks : beforeSkipped.level.lastKeyword = some "object" ∧ beforeSkipped.openObject = some 0 ∧
      beforeSkipped.script.lines[beforeSkipped.cursor]? = some "# p 1" := by decide +kernel
  obtain ⟨hobject, hopen, hcursor⟩ := hchecks
  let ended := runLine (invoke beforeSkipped.nesting) "# p 1" (beforeSkipped.withExecuting (some 2))
  have hended : ended.1.isOk = true ∧ (ended.2.objects.property 0 "p").isOk = false := by decide +kernel
  obtain ⟨hok, hmissing⟩ := hended
  obtain ⟨next, hrun⟩ := ends_of_isOk hok
  obtain ⟨d, id, hd, hdeclares, hid⟩ := hes.attached.toObject hobject
  cases hid.symm.trans hopen
  refine ⟨es, d, next, ended.2, hes, hd, hdeclares, hcursor, hrun, fun value hset => ?_⟩
  obtain ⟨o, ho, hobjects, -⟩ := Objects.setProperty_eq_ok hset
  rw [hobjects, Objects.property_enterOwn ho, if_pos ⟨rfl, rfl⟩] at hmissing
  cases hmissing

end Machine

end LineScript
