/-
# Runs without faults of the machine

A machine is sound when everything that it holds refers to objects that exist (`Machine.Sound`).  A step is safe
when it leads to a sound machine and fails, if it does, with a fault of the language (`Safe`).

* `safe_runBuiltin`: built-in keywords are safe on checked arguments, at a level that has a context;
* `Plain.safe_runLine`: so are the lines of a plain machine, whatever code they nest;
* `Plain.safe_stretch`: and so are stretches of its runs.
-/
import LineScript.Proofs.Machine.Nesting
import LineScript.Proofs.Machine.Faults
import LineScript.Proofs.Machine.References

namespace LineScript

open Act

namespace Machine

/-! ## Safe steps -/

/-- All references to objects lead somewhere, and no fault of the machine itself has ended a run. -/
structure Sound (m : Machine) : Prop where
  symbols : m.symbols.Grounded m.objects.objects.size
  objects : m.objects.Grounded
  openObject : ∀ id, m.openObject = some id → id < m.objects.objects.size
  report : ∀ r, m.lastReport = some r → r.kind ≠ .internal

/-- A step that leads to a sound machine, and whose faults are those of the language. -/
def Safe {α : Type} (a : Act α) (m : Machine) : Prop :=
  Ends a m (fun _ k => k.Sound) fun f k => f.isOfLanguage = true ∧ k.Sound

variable {α β : Type} {m : Machine}

theorem safe_pure (hm : m.Sound) (x : α) : Safe (pure x) m := ends_pure hm

theorem safe_throw (hm : m.Sound) {f : Fault} (hf : f.isOfLanguage = true) : Safe (throw f : Act α) m :=
  ends_throw ⟨hf, hm⟩

theorem safe_bind {a : Act α} {k : α → Act β} (ha : Safe a m) (hk : ∀ x k', k'.Sound → Safe (k x) k') :
    Safe (a >>= k) m :=
  ends_bind ha hk

/-- What is looked up safely, is used safely. -/
theorem safe_look {e : Except Fault α} {k : α → Act β} (hm : m.Sound) (he : Lawful e)
    (hk : ∀ x, e = .ok x → Safe (k x) m) : Safe (Act.ofExcept e >>= k) m :=
  ends_ofExcept_bind hk fun f hf => ⟨he f hf, hm⟩

theorem safe_warn (hm : m.Sound) (c : Caution) : Safe (warn c) m := by
  refine (ends_warn c m).mono ?_ ?_
  · rintro _ _ ⟨e, rfl⟩
    exact ⟨hm.symbols, hm.objects, hm.openObject, hm.report⟩
  · rintro _ _ ⟨rfl, rfl⟩
    exact ⟨rfl, hm⟩

theorem safe_disallow (hm : m.Sound) (c : Caution) : Safe (disallow c) m := by
  refine ends_get ?_
  split
  · exact safe_throw hm rfl
  · exact safe_warn hm c

/-! ## Safe changes of the stores -/

/-- An operation on names with grounded values keeps a machine sound. -/
theorem Sound.perform (hm : m.Sound) {c : Symbols.Command} (hc : c.Grounded m.objects.objects.size) :
    Sound { m with symbols := (m.symbols.perform c).2 } :=
  ⟨hm.symbols.perform hc, hm.objects, hm.openObject, hm.report⟩

/-- So does an operation on objects that leaves their number alone. -/
theorem Sound.withObjects (hm : m.Sound) {o : Objects}
    (ho : o.Grounded ∧ o.objects.size = m.objects.objects.size) : Sound { m with objects := o } := by
  obtain ⟨ho, hsize⟩ := ho
  refine ⟨?_, ho, ?_, hm.report⟩
  · show m.symbols.Grounded o.objects.size
    rw [hsize]
    exact hm.symbols
  · intro id hid
    show id < o.objects.size
    rw [hsize]
    exact hm.openObject id hid

/-- An operation on names with grounded values, as a step. -/
theorem ends_command (hm : m.Sound) (c : Symbols.Command) (hc : c.Grounded m.objects.objects.size)
    {f : Symbols → Except Fault Symbols}
    (hf : ∀ s, f m.symbols = .ok s → (m.symbols.perform c).2 = s) (hlawful : Lawful (f m.symbols)) :
    Ends (onSymbols f) m (fun _ k => k.Sound ∧ k.objects = m.objects)
      fun e k => e.isOfLanguage = true ∧ k.Sound := by
  refine (ends_onSymbols f m).mono ?_ ?_
  · rintro _ _ ⟨s, hs, rfl⟩
    obtain rfl := hf s hs
    exact ⟨hm.perform hc, rfl⟩
  · rintro e _ ⟨he, rfl⟩
    exact ⟨hlawful e he, hm⟩

theorem ends_declare (hm : m.Sound) (name : String) {initial : Option Value} (isGlobal : Bool)
    (hv : ∀ v ∈ initial, v.Grounded m.objects.objects.size) :
    Ends (onSymbols (·.declare name initial isGlobal)) m (fun _ k => k.Sound ∧ k.objects = m.objects)
      fun e k => e.isOfLanguage = true ∧ k.Sound :=
  ends_command hm (.declare name initial isGlobal) (fun v h => hv v (Option.mem_toList.mp h))
    (fun s hs => by rw [Symbols.perform, hs]; rfl) (Symbols.lawful_declare _ _ _ _)

theorem safe_declare (hm : m.Sound) (name : String) {initial : Option Value} (isGlobal : Bool)
    (hv : ∀ v ∈ initial, v.Grounded m.objects.objects.size) :
    Safe (onSymbols (·.declare name initial isGlobal)) m :=
  (ends_declare hm name isGlobal hv).mono (fun _ _ => And.left) fun _ _ => id

theorem safe_assign (hm : m.Sound) (name : String) {value : Value} (isGlobal : Bool)
    (hv : value.Grounded m.objects.objects.size) :
    Safe (onSymbols (·.assign name value isGlobal)) m :=
  (ends_command hm (.assign name value isGlobal) (fun v h => List.mem_singleton.mp h ▸ hv)
    (fun s hs => by rw [Symbols.perform, hs]; rfl) (Symbols.lawful_assign _ _ _ _)).mono
      (fun _ _ => And.left) fun _ _ => id

/-- An operation on names that answers something. -/
theorem safe_reply (hm : m.Sound) (c : Symbols.Command) (hc : c.Grounded m.objects.objects.size)
    {f : Symbols → Except Fault (α × Symbols)}
    (hf : ∀ x s, f m.symbols = .ok (x, s) → (m.symbols.perform c).2 = s)
    (hlawful : Lawful (f m.symbols)) : Safe (onSymbolsReply f) m := by
  refine (ends_onSymbolsReply f m).mono ?_ ?_
  · rintro x _ ⟨s, hs, rfl⟩
    obtain rfl := hf x s hs
    exact hm.perform hc
  · rintro e _ ⟨he, rfl⟩
    exact ⟨hlawful e he, hm⟩

theorem safe_onObjects (hm : m.Sound) {f : Objects → Except Fault Objects} (hlawful : Lawful (f m.objects))
    (hf : ∀ o, f m.objects = .ok o → o.Grounded ∧ o.objects.size = m.objects.objects.size) :
    Safe (onObjects f) m := by
  refine (ends_onObjects f m).mono ?_ ?_
  · rintro _ _ ⟨o, ho, rfl⟩
    exact hm.withObjects (hf o ho)
  · rintro e _ ⟨he, rfl⟩
    exact ⟨hlawful e he, hm⟩

/-- A value that is looked up is grounded. -/
theorem ends_grounded_lookup (hm : m.Sound) (name : String) (reach : Reach) :
    Ends (lookup name reach) m (fun v k => v.Grounded m.objects.objects.size ∧ k = m)
      fun e k => e.isOfLanguage = true ∧ k.Sound := by
  refine (ends_lookup name reach m).mono ?_ ?_
  · rintro v _ ⟨hv, rfl⟩
    exact ⟨hm.symbols.values v (Symbols.holds_of_lookup hv), rfl⟩
  · rintro e _ ⟨he, rfl⟩
    exact ⟨Symbols.lawful_lookup _ _ _ e he, hm⟩

/-- Without names and objects a machine is sound. -/
theorem Sound.hardReset (hm : m.Sound) : m.hardReset.Sound where
  symbols := hm.symbols.clear
  objects := Objects.grounded_empty
  openObject := by rintro id ⟨⟩
  report := hm.report

theorem Sound.softReset (hm : m.Sound) : m.softReset.Sound where
  symbols := hm.symbols.perform (c := .resetPass) (by rintro v ⟨⟩)
  objects := hm.objects.resetPass
  openObject := by rintro id ⟨⟩
  report := hm.report

/-! ## Safe keywords -/

variable {i : Invocation}

/-- The arguments of a keyword are grounded. -/
def GroundedArguments (m : Machine) (i : Invocation) : Prop :=
  ∀ t ∈ i.args, t.value.Grounded m.objects.objects.size

theorem GroundedArguments.value? (hargs : m.GroundedArguments i) {position : Nat} :
    ∀ v ∈ i.value? position, v.Grounded m.objects.objects.size := by
  intro v hv
  obtain ⟨t, ht, rfl⟩ := Invocation.exists_of_value? hv
  exact hargs t ht

theorem GroundedArguments.value (hargs : m.GroundedArguments i) {position : Nat} {v : Value}
    (h : i.value position = .ok v) : v.Grounded m.objects.objects.size := by
  obtain ⟨t, ht, rfl⟩ := Invocation.exists_of_value h
  exact hargs t ht

theorem safe_runDeclare (hm : m.Sound) (hargs : m.GroundedArguments i) (hlen : 1 ≤ i.args.length) :
    Safe (runDeclare i) m :=
  safe_look hm (Invocation.lawful_text hlen) fun name _ =>
    safe_bind (safe_declare hm name _ hargs.value?) fun _ _ hk => safe_pure hk _

theorem safe_runAssign (hm : m.Sound) (hargs : m.GroundedArguments i) (hlen : 2 ≤ i.args.length) :
    Safe (runAssign i) m := by
  refine safe_look hm (Invocation.lawful_text (by omega)) fun name _ =>
    safe_look hm (Invocation.lawful_value hlen) fun value hvalue => ?_
  have hgrounded := hargs.value hvalue
  dsimp only
  split
  · exact safe_bind (safe_assign hm _ _ hgrounded) fun _ _ hk => safe_pure hk _
  · refine ends_bind (ends_grounded_lookup hm _ _) ?_
    rintro target _ ⟨htarget, rfl⟩
    split
    · exact safe_bind (safe_throw hm rfl) fun _ _ hk => safe_pure hk _
    · rename_i id hobject
      obtain rfl := Value.object?_eq_some.mp hobject
      exact safe_bind (safe_onObjects hm (Objects.lawful_setProperty _ _ htarget.object _)
        fun o ho => hm.objects.setProperty hgrounded ho) fun _ _ hk => safe_pure hk _

theorem safe_runArithmetic (op : Arithmetic) (hm : m.Sound) (hlen : 1 ≤ i.args.length) :
    Safe (runArithmetic op i) m := by
  refine safe_look hm (Invocation.lawful_text hlen) fun name _ => ?_
  split
  · refine ends_bind (ends_grounded_lookup hm _ _) ?_
    rintro held _ ⟨-, rfl⟩
    split
    · exact safe_look hm (lawful_compute _ _ _ _) fun _ _ =>
        safe_bind (safe_assign hm _ _ (Or.inl (by simp [Value.refers]))) fun _ _ hk => safe_pure hk _
    · exact safe_throw hm rfl
  · exact safe_throw hm rfl

theorem safe_runJoin (hm : m.Sound) (hlen : 1 ≤ i.args.length) : Safe (runJoin i) m :=
  safe_look hm (Invocation.lawful_text hlen) fun name _ => ends_get <|
    safe_look hm (lawful_joinable _ _) fun text _ =>
      safe_bind (safe_assign hm _ _ (Or.inl (by simp [Value.refers]))) fun _ _ hk => safe_pure hk _

theorem Sound.print (hm : m.Sound) (message : String) : (m.print message).Sound :=
  ⟨hm.symbols, hm.objects, hm.openObject, hm.report⟩

theorem safe_runLog (hm : m.Sound) : Safe (runLog i) m :=
  ends_modify_bind (safe_pure (hm.print _) _)

/-- Copying a variable assigns a value of the store. -/
theorem safe_copyName (hm : m.Sound) (name : String) (toGlobal : Bool) : Safe (copyName name toGlobal) m := by
  refine ends_bind (ends_grounded_lookup hm _ _) ?_
  rintro value _ ⟨hvalue, rfl⟩
  refine ends_get ?_
  dsimp only
  split
  · refine ends_bind (ends_declare hm name toGlobal (by rintro v ⟨⟩)) ?_
    rintro _ k ⟨hk, hobjects⟩
    rw [← hobjects] at hvalue
    exact safe_assign hk _ _ hvalue
  · exact safe_assign hm _ _ hvalue

theorem safe_runExport (hm : m.Sound) (hlen : 1 ≤ i.args.length) : Safe (runExport i) m := by
  refine safe_look hm (Invocation.lawful_text hlen) fun name _ => ends_get ?_
  dsimp only
  split
  · exact safe_bind (safe_copyName hm _ _) fun _ _ hk => safe_pure hk _
  · exact safe_bind (safe_disallow hm _) fun _ _ hk => safe_pure hk _

theorem safe_runImport (hm : m.Sound) (hlen : 1 ≤ i.args.length) : Safe (runImport i) m := by
  refine safe_look hm (Invocation.lawful_text hlen) fun name _ => ends_get ?_
  dsimp only
  split
  · exact safe_bind (safe_copyName hm _ _) fun _ _ hk => safe_pure hk _
  · exact safe_bind (safe_disallow hm _) fun _ _ hk => safe_pure hk _

/-! ## Safe conditions -/

/-- The context of a level that is there can be read. -/
theorem safe_context {depth : Nat} (hdepth : depth < m.contexts.length) {k : Context → Act β}
    (hk : ∀ c, Safe (k c) m) : Safe (context depth >>= k) m := by
  refine ends_bind ((ends_context hdepth).mono (fun _ _ => id) fun _ _ => False.elim) ?_
  rintro c _ rfl
  exact hk c

variable {depth : Nat}

theorem safe_runCondition (hm : m.Sound) (hdepth : depth < m.contexts.length) :
    Safe (runCondition i depth) m :=
  ends_get <| safe_look hm (lawful_holds _ i) fun _ _ => safe_context hdepth fun _ =>
    ends_modify_bind <| ends_pure ⟨hm.symbols, hm.objects, hm.openObject, hm.report⟩

theorem safe_runOtherwise (hm : m.Sound) (hdepth : depth < m.contexts.length) :
    Safe (runOtherwise depth) m := by
  refine safe_context hdepth fun c => ?_
  dsimp only
  split
  · exact safe_bind (safe_throw hm rfl) fun _ _ hk => safe_pure hk _
  · exact safe_pure hm _

theorem safe_addProperty (hm : m.Sound) (hargs : m.GroundedArguments i) : Safe (addProperty i) m := by
  refine safe_look hm (lawful_validate _ _ _) fun _ hvalid => ends_get ?_
  have hlen : 2 ≤ i.args.length := required_le_of_validate hvalid
  split
  · exact safe_look hm (Invocation.lawful_text (by omega)) fun name _ =>
      safe_look hm (Invocation.lawful_value hlen) fun default hdefault =>
        safe_onObjects hm (Objects.lawful_addClassProperty _ _ _ _) fun o ho =>
          hm.objects.addClassProperty (hargs.value hdefault) ho
  · exact safe_throw hm rfl

theorem safe_runContinuation (hm : m.Sound) (hargs : m.GroundedArguments i)
    (hdepth : depth < m.contexts.length) : Safe (runContinuation i depth) m := by
  refine safe_context hdepth fun c => ?_
  split
  · split
    · exact safe_pure hm _
    · exact safe_look hm (lawful_validate _ _ _) fun _ _ => safe_runCondition hm hdepth
  · exact safe_pure hm _
  · exact safe_bind (safe_addProperty hm hargs) fun _ _ hk => safe_pure hk _
  · exact safe_throw hm rfl

/-! ## Safe classes and objects -/

theorem safe_runClass (hm : m.Sound) (hlen : 1 ≤ i.args.length) : Safe (runClass i) m :=
  safe_look hm (Invocation.lawful_text hlen) fun _ _ =>
    safe_bind (safe_onObjects hm (Objects.lawful_declareClass _ _) fun _ ho => hm.objects.declareClass ho)
      fun _ _ hk => ends_modify_bind (ends_pure ⟨hk.symbols, hk.objects, hk.openObject, hk.report⟩)

/-- An object that a variable keeps is there. -/
theorem Sound.keptObject (hm : m.Sound) {name : String} {id : Nat}
    (h : keptObject? m.symbols name = some id) : id < m.objects.objects.size := by
  obtain ⟨var, hfound, hkept⟩ := Option.bind_eq_some_iff.mp h
  split_ifs at hkept
  obtain ⟨value, hvalue, hobject⟩ := Option.bind_eq_some_iff.mp hkept
  obtain rfl := Value.object?_eq_some.mp hobject
  exact (hm.symbols.values _ (.variable false (Roster.mem_of_find? hfound) hvalue)).object

/-- One more object, the last one. -/
theorem Sound.push (hm : m.Sound) (className : Option String) :
    Sound { m with objects := { m.objects with objects := m.objects.objects.push ⟨className, {}⟩ } } := by
  have hsize : m.objects.objects.size ≤ (m.objects.objects.push ⟨className, {}⟩).size := by
    rw [Array.size_push]
    exact Nat.le_succ _
  exact ⟨hm.symbols.mono hsize, hm.objects.push className,
    fun id hid => Nat.lt_of_lt_of_le (hm.openObject id hid) hsize, hm.report⟩

/-- The variable that is declared for an object refers to one that is there. -/
theorem safe_declareObject (hm : m.Sound) (name : String) {id : Nat} (hid : id < m.objects.objects.size) :
    Safe (declareObject name id) m := by
  refine ends_bind (ends_declare hm name false ?_) ?_
  · rintro v ⟨⟩
    exact Or.inr ⟨id, hid, rfl⟩
  · rintro _ k ⟨hk, hobjects⟩
    refine ends_modify_bind (ends_pure ⟨hk.symbols, hk.objects, ?_, hk.report⟩)
    rintro _ ⟨⟩
    show id < k.objects.objects.size
    rw [hobjects]
    exact hid

theorem safe_runObject (hm : m.Sound) (hlen : 1 ≤ i.args.length) : Safe (runObject i) m := by
  refine Ends.of_apply_eq ?_ (runObject_apply i m)
  refine safe_look hm (Invocation.lawful_text hlen) fun name _ =>
    safe_look hm (lawful_classNamed i name) fun className _ => ?_
  split
  · rename_i id hkept
    exact safe_declareObject hm name (hm.keptObject hkept)
  · refine ends_bind ((ends_createObject className m).mono (fun _ _ => id) ?_) ?_
    · rintro e _ ⟨he, rfl⟩
      exact ⟨Objects.lawful_create _ _ e he, hm⟩
    · rintro id _ ⟨o, hcreate, rfl⟩
      obtain ⟨rfl, rfl⟩ := Objects.create_eq_ok hcreate
      refine safe_declareObject (hm.push className) name ?_
      show m.objects.objects.size < (m.objects.objects.push ⟨className, {}⟩).size
      rw [Array.size_push]
      exact Nat.lt_succ_self _

theorem safe_runProperty (hm : m.Sound) (hargs : m.GroundedArguments i) (hlen : 2 ≤ i.args.length)
    (hdepth : depth < m.contexts.length) : Safe (runProperty i depth) m := by
  refine safe_context hdepth fun c => ends_get ?_
  split
  · rename_i id _ hopen
    exact safe_look hm (Invocation.lawful_text (by omega)) fun name _ =>
      safe_look hm (Invocation.lawful_value hlen) fun value hvalue =>
        safe_bind (safe_onObjects hm (Objects.lawful_setProperty _ _ (hm.openObject id hopen) _)
          fun o ho => hm.objects.setProperty (hargs.value hvalue) ho) fun _ _ hk => safe_pure hk _
  · exact safe_throw hm rfl

/-! ## Safe functions and jumps -/

theorem safe_readParameter (hm : m.Sound) (function text : String) (seen : List Parameter) :
    Safe (readParameter function text seen) m := by
  unfold readParameter
  rcases Text.cutString ':' text with _ | ⟨name, type⟩
  · dsimp only
    split
    · exact safe_bind (safe_throw hm rfl) fun _ _ hk => safe_bind (safe_warn hk _) fun _ _ hl => safe_pure hl _
    · exact safe_bind (safe_warn hm _) fun _ _ hk => safe_pure hk _
  · dsimp only
    split
    · exact ends_bind (R := fun _ _ => False) (ends_throw ⟨rfl, hm⟩) fun _ _ => False.elim
    · split
      · exact safe_bind (safe_warn hm _) fun _ _ hk => safe_pure hk _
      · exact safe_pure hm _
      · exact ends_get <| safe_look hm (lawful_parameterTag _ _) fun _ _ => safe_pure hm _

theorem safe_readParameters (hm : m.Sound) (function : String) (seen : List Parameter) (args : List Token) :
    Safe (readParameters function seen args) m := by
  induction args generalizing m seen with
  | nil => exact safe_pure hm _
  | cons arg rest ih => exact safe_bind (safe_readParameter hm _ _ _) fun p k hk => ih hk _

theorem safe_runFunction (hm : m.Sound) (hlen : 1 ≤ i.args.length) : Safe (runFunction i) m := by
  refine safe_look hm (Invocation.lawful_text hlen) fun name _ =>
    safe_bind (safe_readParameters hm _ _ _) fun params k hk => ends_get ?_
  refine safe_bind (safe_reply hk (.declareFunction name params k.cursor) (by rintro v ⟨⟩)
    (fun _ _ hs => by rw [Symbols.perform, hs]; rfl) (Symbols.lawful_declareFunction _ _ _ _)) fun reply l hl => ?_
  split <;> exact safe_pure hl _

theorem safe_runExecute (hm : m.Sound) (hargs : m.GroundedArguments i) (hlen : 1 ≤ i.args.length) :
    Safe (runExecute i) m := by
  refine safe_look hm (Invocation.lawful_text hlen) fun name _ => ends_get ?_
  refine safe_bind (safe_reply hm (.call name ((i.args.drop 1).map (·.value)) m.cursor) ?_
    (fun _ _ hs => by rw [Symbols.perform, hs]; rfl) (Symbols.lawful_call _ _ _ _)) fun _ _ hk => safe_pure hk _
  intro v hv
  obtain ⟨t, ht, rfl⟩ := List.mem_map.mp hv
  exact hargs t (List.mem_of_mem_drop ht)

theorem safe_runEnd (hm : m.Sound) (hlen : 1 ≤ i.args.length) : Safe (runEnd i) m := by
  refine safe_look hm (Invocation.lawful_text hlen) fun name _ => ?_
  refine safe_bind (safe_reply hm (.finishCall name) (by rintro v ⟨⟩)
    (fun _ _ hs => by rw [Symbols.perform, hs]; rfl) (Symbols.lawful_finishCall _ _)) fun reply k hk => ?_
  split <;> exact safe_pure hk _

theorem safe_runJump (hm : m.Sound) : Safe (runJump i) m :=
  ends_get <| safe_look hm (lawful_jumpTarget _ _ _) fun _ _ => safe_pure hm _

theorem safe_runIterate (hm : m.Sound) (hargs : m.GroundedArguments i) (hlen : 3 ≤ i.args.length) :
    Safe (runIterate i) m := by
  unfold runIterate
  split
  · rename_i items hitems
    obtain ⟨v, hv, hgroup⟩ := Option.bind_eq_some_iff.mp hitems
    obtain rfl := Value.group?_eq_some.mp hgroup
    refine safe_look hm (Invocation.lawful_text hlen) fun name _ => ends_get ?_
    refine safe_bind (safe_reply hm (.iterate name items m.cursor)
      (fun _ hitem => (hargs.value? _ hv).element hitem) (fun _ _ hs => by rw [Symbols.perform, hs]; rfl)
      (Symbols.lawful_iterate _ _ _ _)) fun reply k hk => ?_
    split <;> exact safe_pure hk _
  · exact safe_throw hm rfl

/-! ## Safe waits and stops -/

theorem safe_runPause (hm : m.Sound) : Safe (runPause i) m :=
  ends_get <| safe_look hm (lawful_pauseMode _ _) fun _ _ =>
    ends_modify_bind (ends_pure ⟨hm.symbols, hm.objects, hm.openObject, hm.report⟩)

theorem safe_runAwaitKey (hm : m.Sound) : Safe (runAwaitKey i) m :=
  ends_modify_bind (ends_pure ⟨hm.symbols, hm.objects, hm.openObject, hm.report⟩)

theorem safe_runStop (hm : m.Sound) : Safe runStop m := by
  have hreset := hm.hardReset
  exact ends_modify_bind (ends_pure ⟨hreset.symbols, hreset.objects, hreset.openObject, hreset.report⟩)

theorem safe_runRestart (hm : m.Sound) : Safe (runRestart i) m := by
  refine ends_modify_bind (safe_pure ?_ _)
  split_ifs
  · exact hm.softReset
  · exact hm.hardReset

/-- **Built-in keywords are safe** on checked arguments, at a level that has a context. -/
theorem safe_runBuiltin (b : Builtin) (hm : m.Sound) (hargs : m.GroundedArguments i)
    (hlen : required b.descriptors ≤ i.args.length) (hdepth : depth < m.contexts.length) :
    Safe (runBuiltin b i depth) m := by
  cases b with
  | declare => exact safe_runDeclare hm hargs hlen
  | assign => exact safe_runAssign hm hargs hlen
  | arithmetic op => exact safe_runArithmetic op hm (Nat.le_of_succ_le hlen)
  | join => exact safe_runJoin hm (Nat.le_of_succ_le hlen)
  | log => exact safe_runLog hm
  | function => exact safe_runFunction hm hlen
  | execute => exact safe_runExecute hm hargs hlen
  | finish => exact safe_runEnd hm hlen
  | condition => exact safe_runCondition hm hdepth
  | otherwise => exact safe_runOtherwise hm hdepth
  | continuation => exact safe_runContinuation hm hargs hdepth
  | jump => exact safe_runJump hm
  | iterate => exact safe_runIterate hm hargs hlen
  | newClass => exact safe_runClass hm hlen
  | newObject => exact safe_runObject hm hlen
  | property => exact safe_runProperty hm hargs hlen hdepth
  | pause => exact safe_runPause hm
  | awaitKey => exact safe_runAwaitKey hm
  | stop => exact safe_runStop hm
  | restart => exact safe_runRestart hm
  | exportName => exact safe_runExport hm hlen
  | importName => exact safe_runImport hm hlen

/-! ## Safe lines -/

theorem Sound.withContexts (hm : m.Sound) (cs : List Context) : (m.withContexts cs).Sound :=
  ⟨hm.symbols, hm.objects, hm.openObject, hm.report⟩

theorem Sound.leaveContext (hm : m.Sound) (keyword : String) (depth : Nat) :
    (m.leaveContext keyword depth).Sound := by
  unfold Machine.leaveContext
  split_ifs
  · exact hm
  · exact hm.withContexts _

theorem Plain.safe_runKeyword (hplain : m.Plain) (hm : m.Sound) (inv : Invoke)
    (hargs : m.GroundedArguments i) (hdepth : depth < m.contexts.length) :
    Safe (Machine.runKeyword inv i depth) m := by
  unfold Machine.runKeyword
  split
  · exact safe_bind (safe_warn hm _) fun _ _ hk => safe_pure hk _
  · refine ends_get ?_
    rw [hplain.find?_keyword]
    dsimp only
    split
    · exact safe_look hm (lawful_validate _ _ _) fun _ hvalid =>
        safe_runBuiltin _ hm hargs (required_le_of_validate hvalid) hdepth
    · exact safe_throw hm rfl

theorem Plain.safe_dispatch (hplain : m.Plain) (hm : m.Sound) (inv : Invoke) {s : Statement}
    (hargs : ∀ t ∈ s.args, t.value.Grounded m.objects.objects.size) (hdepth : depth < m.contexts.length) :
    Safe (Machine.dispatch inv s depth) m := by
  unfold Machine.dispatch
  dsimp only
  split
  · exact safe_throw hm rfl
  · refine ends_get (safe_look hm (lawful_checkLabels _ _ _) fun _ _ => ends_get ?_)
    exact safe_bind (hplain.safe_runKeyword hm inv hargs hdepth) fun _ _ hk =>
      ends_modify_bind (safe_pure (hk.leaveContext _ _) _)

/-- **Nested code is safe**, by induction on the bound of the nesting: each level gets its context, and what is nested
are arguments of the level before. -/
theorem Plain.safe_runNested (inv : Invoke) (bound : Nat) (hplain : m.Plain) (hm : m.Sound)
    {tokens : List Token} (htokens : ∀ t ∈ tokens, t.value.Grounded m.objects.objects.size)
    (hdepth : depth ≤ m.contexts.length) : Safe (runNested inv bound tokens depth) m := by
  induction bound generalizing m tokens depth with
  | zero => exact safe_pure hm _
  | succ bound ih =>
    cases tokens with
    | nil => exact safe_pure hm _
    | cons first rest =>
      have hcons := runNested_cons inv bound first rest depth m
      have hplain' := hplain.openContext depth
      obtain ⟨cs, hopen, hopened⟩ := m.openContext_eq_withContexts depth
      have hlevel := hopened hdepth
      rw [hopen] at hcons hplain'
      split_ifs at hcons
      · exact (safe_pure (hm.withContexts cs) none).of_apply_eq hcons
      · let s := Statement.ofTokens m.registry.isLabel first rest
        have hargs : ∀ t ∈ s.args, t.value.Grounded m.objects.objects.size := fun t ht =>
          htokens t (Statement.mem_of_mem_args ht)
        have hdispatch : Ends (Machine.dispatch inv s depth) (m.withContexts cs)
            (fun next k => k.Sound ∧ Machine.dispatch inv s depth (m.withContexts cs) = (.ok next, k))
            fun f k => f.isOfLanguage = true ∧ k.Sound :=
          ((hplain'.safe_dispatch (hm.withContexts cs) inv hargs hlevel).and
            (ends_of_ok fun _ _ => id)).mono (fun _ _ => id) fun _ _ => And.left
        refine (ends_bind hdispatch fun next k hnext => ?_).of_apply_eq hcons
        obtain ⟨hk, hok⟩ := hnext
        cases next with
        | following => exact safe_pure hk _
        | line n => exact safe_pure hk _
        | nested skip =>
          obtain ⟨-, cs', hlength, rfl⟩ := dispatch_nested hok
          have hlevel' : depth + 1 ≤ cs'.length := by
            rw [hlength]
            exact hlevel
          exact ih (hplain'.dispatch hok) hk (fun t ht => hargs t (List.mem_of_mem_drop ht)) hlevel'

/-- **Lines are safe**: whatever a line looks up or writes down is grounded. -/
theorem Plain.safe_runLine (hplain : m.Plain) (hm : m.Sound) (inv : Invoke) (line : String) :
    Safe (Machine.runLine inv line) m := by
  refine ends_get (safe_look hm (lawful_tokenize _ (lawful_resolver ?_) line) fun tokens htokens => ?_)
  · intro name reach id hfound
    exact (hm.symbols.values _ (Symbols.holds_of_lookup hfound)).object
  · exact ends_finally <| (hplain.safe_runNested inv _ hm
      (grounded_of_tokenize hm.symbols hm.objects htokens) (Nat.zero_le _)).mono
        (fun _ _ hk => hk.withContexts _) fun _ _ hk => ⟨hk.1, hk.2.withContexts _⟩

/-! ## Safe runs -/

theorem Sound.fail (hm : m.Sound) {f : Fault} (hf : f.isOfLanguage = true) : (m.fail f).Sound := by
  have hreport : ∀ r, some (m.report f) = some r → r.kind ≠ .internal := by
    rintro _ ⟨⟩
    show f.kind ≠ .internal
    simpa [Fault.isOfLanguage] using hf
  unfold Machine.fail
  dsimp only
  split_ifs <;> exact ⟨hm.symbols, hm.objects, hm.openObject, hreport⟩

theorem Plain.safe_cursorLine (hplain : m.Plain) (hm : m.Sound) (inv : Invoke) {line : String}
    (hline : m.script.lines[m.cursor]? = some line) : Safe (Machine.guarded (Machine.runCursorLine inv)) m := by
  have hrun : Safe (Machine.runCursorLine inv) m := by
    refine Ends.of_apply_eq ?_ (runCursorLine_apply inv hline)
    have hstart : m.onLine.Sound := ⟨hm.symbols, hm.objects, hm.openObject, hm.report⟩
    exact safe_bind (hplain.onLine.safe_runLine hstart inv line) fun next _ hk =>
      ends_modify ⟨hk.symbols, hk.objects, hk.openObject, hk.report⟩
  refine (ends_guarded hrun).mono (fun _ _ => id) ?_
  rintro f _ ⟨l, ⟨hf, hl⟩, rfl⟩
  exact ⟨hf, hl.fail hf⟩

/-- A move of a run is safe. -/
theorem Plain.safe_advance (hplain : m.Plain) (hm : m.Sound) {t : Stretch} (h : m.advance = some t) :
    t.last.Sound ∧ ∀ f ∈ t.faults, f.isOfLanguage = true := by
  unfold Machine.advance at h
  split at h
  · cases h
    exact ⟨⟨hm.symbols, hm.objects, hm.openObject, hm.report⟩, by rintro f ⟨⟩⟩
  · split at h
    · cases h
      exact ⟨⟨hm.symbols, hm.objects, hm.openObject, hm.report⟩, by rintro f ⟨⟩⟩
    · rename_i line hline
      split_ifs at h
      · cases h
        have hsafe := hplain.safe_cursorLine hm (invoke m.nesting) hline
        rcases ha : Machine.guarded (Machine.runCursorLine (invoke m.nesting)) m with ⟨f | x, k⟩
        · obtain ⟨hf, hk⟩ := hsafe.of_error ha
          refine ⟨hk, fun f' hf' => ?_⟩
          rw [List.mem_singleton.mp hf']
          exact hf
        · exact ⟨hsafe.of_ok ha, by rintro f ⟨⟩⟩
      · cases h
        refine ⟨?_, by rintro f ⟨⟩⟩
        have hfinish := hm.perform (c := .finishDeclaration m.cursor) (by rintro v ⟨⟩)
        unfold pass
        dsimp only
        split_ifs
        · exact ⟨hm.symbols, hm.objects, hm.openObject, hm.report⟩
        · split
          · split_ifs
            · exact ⟨hfinish.symbols, hm.objects, hm.openObject, hm.report⟩
            · exact ⟨hm.symbols, hm.objects, hm.openObject, hm.report⟩
          · exact ⟨hm.symbols, hm.objects, hm.openObject, hm.report⟩
  · cases h

/-- So is a stretch of moves. -/
theorem Plain.safe_stretch (hplain : m.Plain) (hm : m.Sound) (n : Nat) :
    (m.stretch n).last.Sound ∧ ∀ f ∈ (m.stretch n).faults, f.isOfLanguage = true := by
  induction n generalizing m with
  | zero => exact ⟨hm, by rintro f ⟨⟩⟩
  | succ n ih =>
    cases hmove : m.advance with
    | none =>
      rw [stretch_of_rest hmove]
      exact ⟨hm, by rintro f ⟨⟩⟩
    | some t =>
      obtain ⟨ht, hfaults⟩ := hplain.safe_advance hm hmove
      obtain ⟨hlast, hmore⟩ := ih (hplain.advance hmove) ht
      rw [stretch_succ hmove]
      refine ⟨hlast, fun f hf => ?_⟩
      exact (List.mem_append.mp hf).elim (hfaults f) (hmore f)

end Machine

end LineScript
