/-
# What continuation lines reach

A line that begins with `#` writes a property of the object that is open, and a line that begins with `|` behind a
`class` statement adds one to the class that is open.  Whether such a line is let in goes by the outermost context,
which the machine keeps apart from the object and the class (`SameTargets`).

* `keeps_runSparing`: most keywords leave both alone, and no class gains a property by them;
* `sameFooting_of_error`: a keyword that fails leaves both alone, and the contexts as well;
* `Plain.runNested_error_head?`: nested code that fails leaves the outermost context alone;
* `Plain.gainsNothing_runNested`: by nested code no class gains a property, as a `|` has nothing there to continue;
* `Plain.gainsNothing_runLine`: so by a line one does only behind a `class` statement.
-/
import LineScript.Proofs.Machine.Data
import LineScript.Proofs.Machine.Atomicity
import LineScript.Proofs.Objects.Properties

namespace LineScript

open Act

/-- Does a keyword leave alone which statement is continued, and all classes? -/
def Builtin.sparesTargets : Builtin → Bool
  | .continuation | .newClass | .newObject | .stop | .restart => false
  | _ => true

namespace Machine

/-! ## Keywords that declare neither classes nor objects -/

/-- A relation that overlooks values, calls and the mode. -/
class OverlookingNames (R : Machine → Machine → Prop) : Prop extends OverlookingValues R where
  symbols (m : Machine) (s : Symbols) : R m { m with symbols := s }
  mode (m : Machine) (mode : Mode) : R m { m with mode := mode }
  table m _ _ := symbols m _

section OverlookingNames

variable {R : Machine → Machine → Prop} [hR : OverlookingNames R]

theorem keeps_onSymbolsReply {α : Type} (f : Symbols → Except Fault (α × Symbols)) :
    Keeps R (onSymbolsReply f) := by
  refine fun m => (ends_onSymbolsReply f m).mono ?_ ?_
  · rintro _ _ ⟨s, -, rfl⟩
    exact hR.symbols m s
  · rintro _ _ ⟨-, rfl⟩
    exact hR.refl _

/-- **Keywords that declare neither classes nor objects, and reset nothing, keep what overlooks names.** -/
theorem keeps_runSparing {b : Builtin} (hb : b.sparesTargets = true) (i : Invocation) (depth : Nat) :
    Keeps R (runBuiltin b i depth) := by
  cases b with
  | declare => exact keeps_runDeclare i
  | assign => exact keeps_runAssign i
  | arithmetic op => exact keeps_runArithmetic op i
  | join => exact keeps_runJoin i
  | log => exact keeps_runLog i
  | function =>
    refine keeps_bind (keeps_ofExcept _) fun _ => keeps_bind (keeps_readParameters _ _ _) fun _ =>
      keeps_get fun _ => keeps_bind (keeps_onSymbolsReply _) fun reply => ?_
    split <;> exact keeps_pure _
  | execute =>
    exact keeps_bind (keeps_ofExcept _) fun _ => keeps_get fun _ =>
      keeps_bind (keeps_onSymbolsReply _) fun _ => keeps_pure _
  | finish =>
    refine keeps_bind (keeps_ofExcept _) fun _ => keeps_bind (keeps_onSymbolsReply _) fun reply => ?_
    split <;> exact keeps_pure _
  | condition => exact keeps_runCondition i depth
  | otherwise => exact keeps_runOtherwise depth
  | jump => exact keeps_runJump i
  | iterate =>
    show Keeps R (runIterate i)
    unfold runIterate
    split
    · refine keeps_bind (keeps_ofExcept _) fun _ => keeps_get fun _ =>
        keeps_bind (keeps_onSymbolsReply _) fun reply => ?_
      split <;> exact keeps_pure _
    · exact keeps_throw _
  | property => exact keeps_runProperty i depth
  | pause => exact keeps_get fun _ => keeps_bind (keeps_ofExcept _) fun mode =>
      keeps_bind (keeps_modify fun m => hR.mode m mode) fun _ => keeps_pure _
  | awaitKey => exact keeps_bind (keeps_modify fun m => hR.mode m _) fun _ => keeps_pure _
  | exportName => exact keeps_runExport i
  | importName => exact keeps_runImport i
  | continuation | newClass | newObject | stop | restart => cases hb

end OverlookingNames

/-! ## The open class and the open object -/

/-- The same class and the same object are open to continuation lines. -/
structure SameTargets (m k : Machine) : Prop where
  openClass : k.openClass = m.openClass
  openObject : k.openObject = m.openObject

instance overlookingObjects_sameTargets : OverlookingObjects SameTargets where
  refl _ := ⟨rfl, rfl⟩
  trans h h' := ⟨h'.openClass.trans h.openClass, h'.openObject.trans h.openObject⟩
  emit _ _ := ⟨rfl, rfl⟩
  contexts _ _ := ⟨rfl, rfl⟩
  table _ _ _ := ⟨rfl, rfl⟩
  objects _ _ := ⟨rfl, rfl⟩
  print _ _ := ⟨rfl, rfl⟩

instance overlookingNames_sameTargets : OverlookingNames SameTargets where
  symbols _ _ := ⟨rfl, rfl⟩
  mode _ _ := ⟨rfl, rfl⟩
  property m _ _ _ o _ := overlookingObjects_sameTargets.objects m o
  print := overlookingObjects_sameTargets.print

theorem sameTargets_leaveContext (keyword : String) (depth : Nat) (m : Machine) :
    m.SameTargets (m.leaveContext keyword depth) := keeps_leaveContext keyword m

/-! ## Keywords that fail -/

/-- A keyword fails without another class or object being open. -/
theorem sameTargets_of_error (b : Builtin) (i : Invocation) (depth : Nat) (m : Machine) :
    Ends (runBuiltin b i depth) m (fun _ _ => True) fun _ k => m.SameTargets k := by
  cases hb : b.sparesTargets with
  | true => exact (keeps_runSparing hb i depth m).mono (fun _ _ _ => trivial) fun _ _ h => h
  | false =>
    cases b with
    | continuation => exact (keeps_runContinuation i depth m).mono (fun _ _ _ => trivial) fun _ _ h => h
    | newClass =>
      -- What is opened is opened last.
      refine ends_ofExcept_bind (fun name _ => ?_) fun _ _ => ⟨rfl, rfl⟩
      refine ends_bind ((keeps_onObjects _ m).mono (fun _ _ _ => trivial) fun _ _ h => h) ?_
      exact fun _ _ _ => ends_modify_bind (ends_pure trivial)
    | newObject =>
      refine Ends.of_apply_eq ?_ (runObject_apply i m)
      refine ends_ofExcept_bind (fun name _ => ?_) fun _ _ => ⟨rfl, rfl⟩
      refine ends_ofExcept_bind (fun className _ => ?_) fun _ _ => ⟨rfl, rfl⟩
      split
      · rename_i id _
        refine (declareObject_error name id m).mono (fun _ _ _ => trivial) ?_
        rintro _ _ ⟨rfl, -⟩
        exact ⟨rfl, rfl⟩
      · refine ends_bind (keeps_createObject className m) fun id k hk => ?_
        refine (declareObject_error name id k).mono (fun _ _ _ => trivial) ?_
        rintro _ _ ⟨rfl, -⟩
        exact hk
    | stop => exact (sure_runStop m).mono (fun _ _ _ => trivial) fun _ _ => False.elim
    | restart => exact (sure_runRestart i m).mono (fun _ _ _ => trivial) fun _ _ => False.elim
    | _ => cases hb

/-- Looking at a context changes nothing. -/
theorem ends_context_same (depth : Nat) (m : Machine) :
    Ends (context depth) m (fun c k => m.contexts[depth]? = some c ∧ k = m) fun _ k => k = m := by
  refine ends_get ?_
  split
  · rename_i c hc
    exact ends_pure ⟨hc, rfl⟩
  · exact ends_throw rfl

/-- A condition writes its truth last. -/
theorem runCondition_error_contexts (i : Invocation) (depth : Nat) (m : Machine) :
    Ends (runCondition i depth) m (fun _ _ => True) fun _ k => k.contexts = m.contexts := by
  refine ends_get (ends_ofExcept_bind (fun satisfied _ => ?_) fun _ _ => rfl)
  refine ends_bind ((ends_context_same depth m).mono (fun _ _ _ => trivial) ?_) ?_
  · rintro _ _ rfl
    rfl
  · exact fun _ _ _ => ends_modify_bind (ends_pure trivial)

theorem addProperty_contexts (i : Invocation) (m : Machine) : (addProperty i m).2.contexts = m.contexts :=
  ((congruence_contexts m.contexts).agree_addProperty i m m ⟨rfl, rfl⟩).2.2

/-- A keyword fails without a change of contexts. -/
theorem contexts_of_error (b : Builtin) (i : Invocation) (depth : Nat) (m : Machine) :
    Ends (runBuiltin b i depth) m (fun _ _ => True) fun _ k => k.contexts = m.contexts := by
  cases hb : b.isQuiet with
  | true =>
    exact (ends_of_snd (P := fun k => k.contexts = m.contexts) (runQuiet_contexts hb i depth m)).mono
      (fun _ _ _ => trivial) fun _ _ h => h
  | false =>
    cases b with
    | condition => exact runCondition_error_contexts i depth m
    | continuation =>
      refine ends_bind ((ends_context_same depth m).mono (fun _ _ h => h.2) ?_) ?_
      · rintro _ _ rfl
        rfl
      intro c k hk
      rw [hk]
      split
      · split
        · exact ends_pure trivial
        · exact ends_ofExcept_bind (fun _ _ => runCondition_error_contexts i depth m) fun _ _ => rfl
      · exact ends_pure trivial
      · exact ends_bind (ends_of_snd (P := fun k => k.contexts = m.contexts) (addProperty_contexts i m))
          fun _ _ _ => ends_pure trivial
      · exact ends_throw rfl
    | stop => exact (sure_runStop m).mono (fun _ _ _ => trivial) fun _ _ => False.elim
    | restart => exact (sure_runRestart i m).mono (fun _ _ _ => trivial) fun _ _ => False.elim
    | _ => cases hb

/-- Nothing that a continuation line goes by has changed. -/
structure SameFooting (m k : Machine) : Prop extends SameTargets m k where
  contexts : k.contexts = m.contexts

theorem SameFooting.refl (m : Machine) : m.SameFooting m := ⟨⟨rfl, rfl⟩, rfl⟩

/-- **A keyword that fails has changed nothing that a continuation line goes by.** -/
theorem sameFooting_of_error (b : Builtin) (i : Invocation) (depth : Nat) (m : Machine) :
    Ends (runBuiltin b i depth) m (fun _ _ => True) fun _ k => m.SameFooting k :=
  ((sameTargets_of_error b i depth m).and (contexts_of_error b i depth m)).mono (fun _ _ _ => trivial)
    fun _ _ ⟨htargets, hcontexts⟩ => ⟨htargets, hcontexts⟩

theorem Plain.runKeyword_error {m : Machine} (hm : m.Plain) (inv : Invoke) (i : Invocation) (depth : Nat) :
    Ends (Machine.runKeyword inv i depth) m (fun _ _ => True) fun _ k => m.SameFooting k := by
  unfold Machine.runKeyword
  split
  · refine ends_bind ((ends_warn _ m).mono (fun _ _ _ => trivial) ?_) fun _ _ _ => ends_pure trivial
    rintro _ _ ⟨-, rfl⟩
    exact .refl _
  · refine ends_get ?_
    rw [hm.find?_keyword]
    dsimp only
    split
    · exact ends_ofExcept_bind (fun _ _ => sameFooting_of_error _ i depth m) fun _ _ => .refl m
    · exact ends_throw (.refl m)

/-- A statement that fails has changed nothing that a continuation line goes by. -/
theorem Plain.dispatch_error {m : Machine} (hm : m.Plain) (inv : Invoke) (s : Statement) (depth : Nat) :
    Ends (Machine.dispatch inv s depth) m (fun _ _ => True) fun _ k => m.SameFooting k := by
  unfold Machine.dispatch
  dsimp only
  split
  · exact ends_throw (.refl m)
  · refine ends_get (ends_ofExcept_bind (fun _ _ => ends_get ?_) fun _ _ => .refl m)
    exact ends_bind (hm.runKeyword_error inv _ depth) fun _ _ _ => ends_modify_bind (ends_pure trivial)

/-- **Nested code that fails leaves the outermost context alone**, by induction on the bound of the nesting. -/
theorem Plain.runNested_error_head? (inv : Invoke) (bound : Nat) {m : Machine} (hm : m.Plain) (tokens : List Token)
    (depth : Nat) :
    Ends (runNested inv bound tokens (depth + 1)) m (fun _ _ => True)
      fun _ k => k.contexts.head? = m.contexts.head? := by
  induction bound generalizing m tokens depth with
  | zero => exact ends_pure trivial
  | succ bound ih =>
    cases tokens with
    | nil => exact ends_pure trivial
    | cons first rest =>
      have hcons := runNested_cons inv bound first rest (depth + 1) m
      split_ifs at hcons
      · exact (ends_pure trivial).of_apply_eq hcons
      · have hopen := hm.head?_openContext (depth + 1)
        have hm' := hm.openContext (depth + 1)
        have hdispatch := ((hm'.dispatch_error inv (Statement.ofTokens m.registry.isLabel first rest)
          (depth + 1)).and (ends_of_ok fun _ _ h => h)).mono (fun _ _ => And.right)
            fun f k h => (congrArg List.head? h.1.contexts).trans hopen
        refine (ends_bind hdispatch fun next k hok => ?_).of_apply_eq hcons
        cases next with
        | following => exact ends_pure trivial
        | line n => exact ends_pure trivial
        | nested skip =>
          -- The statement goes on with its code, so it has not reset the machine.
          have hhead : k.contexts.head? = m.contexts.head? := by
            rcases hm'.dispatch_head? hok with hsame | ⟨hreset, -⟩
            · exact hsame.trans hopen
            · cases hreset
          exact (ih (hm'.dispatch hok) _ _).mono (fun _ _ _ => trivial) fun _ _ h => h.trans hhead

end Machine

/-! ## Properties that classes gain -/

namespace Objects

/-- A class has a property, in this pass or from an earlier one. -/
def HasDefault (s : Objects) (className prop : String) : Prop :=
  ∃ c, s.classes.find? className = some c ∧ c.defaults.has prop = true

variable {s s' : Objects} {name className prop : String}

theorem HasDefault.of_declareClass (hok : s.declareClass name = .ok s') (h : s'.HasDefault className prop) :
    s.HasDefault className prop := by
  obtain ⟨-, rfl⟩ := declareClass_eq_ok hok
  obtain ⟨c, hc, hprop⟩ := h
  by_cases hname : className = name
  · subst hname
    rw [Roster.find?_enter_self] at hc
    cases hc
    cases hprop
  · rw [Roster.find?_enter_of_ne _ hname] at hc
    exact ⟨c, hc, hprop⟩

/-- What is gained by the addition of a property is this property. -/
theorem HasDefault.of_addClassProperty {other : String} {value : Value}
    (hok : s.addClassProperty other name value = .ok s') (h : s'.HasDefault className prop) :
    s.HasDefault className prop ∨ className = other ∧ prop = name := by
  obtain ⟨c, hc, -, rfl⟩ := addClassProperty_eq_ok hok
  obtain ⟨c', hc', hprop⟩ := h
  by_cases hclass : className = other
  · subst hclass
    rw [Roster.find?_enter_self] at hc'
    cases hc'
    by_cases hname : prop = name
    · exact Or.inr ⟨rfl, hname⟩
    · refine Or.inl ⟨c, hc, ?_⟩
      rwa [Roster.has, Roster.find?_enter_of_ne _ hname] at hprop
  · rw [Roster.find?_enter_of_ne _ hclass] at hc'
    exact Or.inl ⟨c', hc', hprop⟩

theorem HasDefault.of_resetPass (h : s.resetPass.HasDefault className prop) : s.HasDefault className prop := by
  obtain ⟨c, hc, hprop⟩ := h
  rw [resetPass, Roster.find?_map] at hc
  obtain ⟨c', hc', rfl⟩ := Option.map_eq_some_iff.mp hc
  exact ⟨c', hc', hprop⟩

theorem hasDefault_iff : s.HasDefault className prop ↔ (s.classes.find? className).any (·.defaults.has prop) = true := by
  rw [Option.any_eq_true]
  rfl

instance : Decidable (s.HasDefault className prop) := decidable_of_iff _ hasDefault_iff.symm

theorem not_hasDefault_empty : ¬ HasDefault {} className prop := by
  rintro ⟨c, hc, -⟩
  cases hc

end Objects

namespace Machine

/-- No class has a property that it did not have before. -/
def GainsNothing (m k : Machine) : Prop :=
  ∀ className prop, k.objects.HasDefault className prop → m.objects.HasDefault className prop

theorem GainsNothing.of_objects {m k : Machine} (h : k.objects = m.objects) : m.GainsNothing k := by
  intro className prop
  rw [h]
  exact id

theorem GainsNothing.of_classes {m k : Machine} (h : k.objects.classes = m.objects.classes) : m.GainsNothing k := by
  rintro className prop ⟨c, hc, hprop⟩
  exact ⟨c, by rwa [h] at hc, hprop⟩

theorem GainsNothing.trans {m k l : Machine} (h : m.GainsNothing k) (h' : k.GainsNothing l) : m.GainsNothing l :=
  fun className prop hprop => h className prop (h' className prop hprop)

instance overlookingNames_gainsNothing : OverlookingNames GainsNothing where
  refl _ := .of_objects rfl
  trans := .trans
  emit _ _ := .of_objects rfl
  contexts _ _ := .of_objects rfl
  property _ _ _ _ _ hok := by
    obtain ⟨_, -, rfl, -⟩ := Objects.setProperty_eq_ok hok
    exact .of_classes rfl
  print _ _ := .of_objects rfl
  symbols _ _ := .of_objects rfl
  mode _ _ := .of_objects rfl

/-- Besides continuations, no keyword gives a class a property. -/
theorem gainsNothing_runBuiltin {b : Builtin} (hb : b ≠ .continuation) (i : Invocation) (depth : Nat) :
    Keeps GainsNothing (runBuiltin b i depth) := by
  cases hspares : b.sparesTargets with
  | true => exact keeps_runSparing hspares i depth
  | false =>
    cases b with
    | continuation => exact absurd rfl hb
    | newClass =>
      refine keeps_bind (keeps_ofExcept _) fun name => keeps_bind (fun m => ?_) fun _ =>
        keeps_bind (keeps_modify fun m => .of_objects rfl) fun _ => keeps_pure _
      refine (ends_onObjects _ m).mono ?_ ?_
      · rintro _ _ ⟨o, ho, rfl⟩ className prop h
        exact h.of_declareClass ho
      · rintro _ _ ⟨-, rfl⟩
        exact .of_objects rfl
    | newObject =>
      have hcreate : ∀ className, Keeps GainsNothing (createObject className) := by
        refine fun className m => (ends_createObject className m).mono ?_ ?_
        · rintro _ _ ⟨o, ho, rfl⟩
          obtain ⟨-, rfl⟩ := Objects.create_eq_ok ho
          exact .of_classes rfl
        · rintro _ _ ⟨-, rfl⟩
          exact .of_objects rfl
      have hdeclare : ∀ name id, Keeps GainsNothing (declareObject name id) := fun name id =>
        keeps_bind (keeps_declare _ _ _) fun _ =>
          keeps_bind (keeps_modify fun m => .of_objects rfl) fun _ => keeps_pure _
      refine fun m => Ends.of_apply_eq ?_ (runObject_apply i m)
      refine keeps_bind (keeps_ofExcept _) (fun name => keeps_bind (keeps_ofExcept _) fun className => ?_) m
      split
      · exact hdeclare name _
      · exact keeps_bind (hcreate className) (hdeclare name)
    | stop => exact keeps_bind (keeps_modify fun m _ _ h => absurd h Objects.not_hasDefault_empty) fun _ => keeps_pure _
    | restart =>
      refine keeps_bind (keeps_modify fun m => ?_) fun _ => keeps_pure _
      split_ifs
      · exact fun _ _ h => h.of_resetPass
      · exact fun _ _ h => absurd h Objects.not_hasDefault_empty
    | _ => cases hspares

/-- A continuation of anything but a class gives no class a property. -/
theorem gainsNothing_runContinuation {i : Invocation} {depth : Nat} {m : Machine} {c : Context}
    (hc : m.contexts[depth]? = some c) (hclass : c.lastKeyword ≠ some "class") :
    Ends (runContinuation i depth) m (fun _ k => m.GainsNothing k) fun _ k => m.GainsNothing k := by
  refine Ends.of_apply_eq ?_ (runContinuation_apply hc)
  rw [if_neg hclass]
  split_ifs
  · exact keeps_pure _ m
  · exact keeps_bind (keeps_ofExcept _) (fun _ => keeps_runCondition i depth) m
  · exact keeps_pure _ m
  · exact keeps_pure _ m
  · exact keeps_throw _ m

section Statements

variable {m : Machine} (inv : Invoke) (bound : Nat) {depth : Nat}

/-- A statement that continues no class, with code nested in it by which no class gains a property. -/
theorem Plain.gainsNothing_statement (hm : m.Plain) (hdepth : m.contexts.length = depth + 1) {c : Context}
    (hc : m.contexts[depth]? = some c) (hclass : c.lastKeyword ≠ some "class")
    (hnested : ∀ {k : Machine} (tokens : List Token), k.Plain → k.contexts.length = depth + 1 →
      Ends (runNested inv bound tokens (depth + 1)) k (fun _ l => k.GainsNothing l) fun _ l => k.GainsNothing l)
    (s : Statement) :
    Ends (Machine.dispatch inv s depth >>= follow inv bound s.args depth) m
      (fun _ k => m.GainsNothing k) fun _ k => m.GainsNothing k := by
  have hstatement : Ends (Machine.dispatch inv s depth) m (fun _ k => m.GainsNothing k)
      fun _ k => m.GainsNothing k := by
    refine hm.keeps_dispatch inv fun b line _ => ?_
    by_cases hb : b = .continuation
    · subst hb
      exact gainsNothing_runContinuation hc hclass
    · exact gainsNothing_runBuiltin hb _ depth m
  have hdispatch : Ends (Machine.dispatch inv s depth) m
      (fun next k => m.GainsNothing k ∧ Machine.dispatch inv s depth m = (.ok next, k)) fun _ k => m.GainsNothing k :=
    (hstatement.and (ends_of_ok fun _ _ h => h)).mono (fun _ _ h => h) fun _ _ h => h.1
  refine ends_bind hdispatch fun next k hk => ?_
  obtain ⟨hkept, hok⟩ := hk
  cases next with
  | following => exact ends_pure hkept
  | line n => exact ends_pure hkept
  | nested skip =>
    obtain ⟨-, cs, hlength, hcs⟩ := dispatch_nested hok
    have hdeeper : k.contexts.length = depth + 1 := by
      rw [hcs]
      exact hlength.trans hdepth
    exact (hnested _ (hm.dispatch hok) hdeeper).mono (fun _ _ h => hkept.trans h) fun _ _ h => hkept.trans h

/-- **By nested code no class gains a property**: a level that is opened for it has nothing that a `|` could continue.
By induction on the bound of the nesting; the code of a statement stands one level deeper, where no context is left from
before. -/
theorem Plain.gainsNothing_runNested (hm : m.Plain) (tokens : List Token) (hdepth : m.contexts.length = depth) :
    Ends (runNested inv bound tokens depth) m (fun _ k => m.GainsNothing k) fun _ k => m.GainsNothing k := by
  induction bound generalizing m tokens depth with
  | zero => exact ends_pure (.of_objects rfl)
  | succ bound ih =>
    cases tokens with
    | nil => exact ends_pure (.of_objects rfl)
    | cons first rest =>
      have hcons := runNested_cons inv bound first rest depth m
      have hcontexts : (m.openContext depth).contexts = m.contexts ++ [({} : Context)] := by
        unfold Machine.openContext
        rw [if_pos (Nat.le_of_eq hdepth)]
      have hlength : (m.openContext depth).contexts.length = depth + 1 := by
        rw [hcontexts, List.length_append, hdepth]
        rfl
      have hfresh : (m.openContext depth).contexts[depth]? = some {} := by
        rw [hcontexts, ← hdepth, List.getElem?_append_right (Nat.le_refl _), Nat.sub_self]
        rfl
      have hopen : m.GainsNothing (m.openContext depth) := by
        obtain ⟨cs, hopen, -⟩ := m.openContext_eq_withContexts depth
        rw [hopen]
        exact .of_objects rfl
      split_ifs at hcons
      · exact (ends_pure (x := none) hopen).of_apply_eq hcons
      · refine Ends.of_apply_eq ?_ hcons
        exact ((hm.openContext depth).gainsNothing_statement inv bound hlength hfresh (by simp)
          (fun tokens hk hlength' => ih hk tokens hlength') _).mono
            (fun _ _ h => hopen.trans h) fun _ _ h => hopen.trans h

end Statements

/-- By a line that continues no class, no class gains a property. -/
theorem Plain.gainsNothing_runLine {m : Machine} (hm : m.Plain) (hlevel : m.contexts.length = 1) (inv : Invoke)
    {line : String} {s : Statement} (hs : m.statement? line = some s) (hclass : m.level.lastKeyword ≠ some "class") :
    Ends (runLine inv line) m (fun _ k => m.GainsNothing k) fun _ k => m.GainsNothing k := by
  obtain ⟨bound, hrun⟩ := hm.runLine_of_statement inv hs
  have hstatement := hm.gainsNothing_statement inv bound hlevel hm.getElem?_zero hclass
    (fun tokens hk hlength => hk.gainsNothing_runNested inv bound tokens hlength) s
  have hclose : ∀ k, m.GainsNothing k → m.GainsNothing k.closeLine := fun k h => h.trans (.of_objects rfl)
  exact Ends.of_apply_eq (ends_finally (hstatement.mono (fun _ k h => hclose k h) fun _ k h => hclose k h)) hrun

end Machine

end LineScript
