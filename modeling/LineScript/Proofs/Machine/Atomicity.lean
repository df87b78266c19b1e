/-
# What a failed line leaves behind

A line that fails should leave no trace in what the script has made: its names, its objects and its console
(`Machine.SameStores`).  Keywords look before they write (`Act.Reads`), and mostly their one write comes last
(`Act.Atomic`).  Two write twice: `object` makes its object before it declares the variable, and `export` and
`import` declare their variable before they assign it.  `Machine.Trace` says exactly what can be left.

* `traced_runBuiltin`: what a failed keyword leaves;
* `Plain.traced_runLine`: what a failed line leaves, its nested code included.

Main statements: what a failed line leaves, whoever runs it (`failed_line_trace`), and that a line can leave
something (`failed_lines_leave_traces`).
-/
import LineScript.Proofs.Machine.Nesting
import LineScript.Proofs.Symbols.Operation

namespace LineScript

open Act

/-- What a script has made is the same: names with their values, calls, objects, classes and messages. -/
structure Machine.SameStores (m k : Machine) : Prop where
  symbols : k.symbols = m.symbols
  objects : k.objects = m.objects
  console : k.console = m.console

theorem Machine.SameStores.refl (m : Machine) : m.SameStores m := ⟨rfl, rfl, rfl⟩

theorem Machine.SameStores.trans {m k l : Machine} (h : m.SameStores k) (h' : k.SameStores l) :
    m.SameStores l :=
  ⟨h'.symbols.trans h.symbols, h'.objects.trans h.objects, h'.console.trans h.console⟩

instance Machine.overlooking_sameStores : Machine.Overlooking Machine.SameStores where
  refl := Machine.SameStores.refl
  trans := Machine.SameStores.trans
  emit _ _ := ⟨rfl, rfl, rfl⟩
  contexts _ _ := ⟨rfl, rfl, rfl⟩

/-! ## Steps that write late -/

namespace Act

variable {α β : Type}

/-- A step that leaves the stores alone, whether it succeeds or fails. -/
def Reads (a : Act α) : Prop := ∀ m, Ends a m (fun _ k => m.SameStores k) (fun _ k => m.SameStores k)

/-- A step that leaves the stores alone when it fails. -/
def Atomic (a : Act α) : Prop := ∀ m, Ends a m (fun _ _ => True) (fun _ k => m.SameStores k)

/-- A step that does not fail. -/
def Sure (a : Act α) : Prop := ∀ m, Ends a m (fun _ _ => True) (fun _ _ => False)

theorem Reads.atomic {a : Act α} (h : Reads a) : Atomic a :=
  fun m => (h m).mono (fun _ _ _ => trivial) fun _ _ => id

theorem atomic_get {k : Machine → Act α} (h : ∀ m, Atomic (k m)) : Atomic (get >>= k) :=
  fun m => ends_get (h m m)

/-- What reads first can fail at any time before its write. -/
theorem atomic_bind {a : Act α} {k : α → Act β} (ha : Reads a) (hk : ∀ x, Atomic (k x)) :
    Atomic (a >>= k) :=
  fun m => ends_bind (ha m) fun x _ hm => (hk x _).mono (fun _ _ => id) fun _ _ => hm.trans

/-- Behind a write nothing may fail. -/
theorem atomic_then {a : Act α} {k : α → Act β} (ha : Atomic a) (hk : ∀ x, Sure (k x)) :
    Atomic (a >>= k) :=
  fun m => ends_bind (ha m) fun x m' _ => (hk x m').mono (fun _ _ => id) fun _ _ => False.elim

theorem sure_pure (x : α) : Sure (pure x : Act α) := fun _ => ends_pure trivial

theorem sure_modify (g : Machine → Machine) : Sure (modify g : Act PUnit) := fun _ => ends_modify trivial

theorem sure_bind {a : Act α} {k : α → Act β} (ha : Sure a) (hk : ∀ x, Sure (k x)) : Sure (a >>= k) :=
  fun m => ends_bind (ha m) fun x _ _ => hk x _

theorem Sure.atomic {a : Act α} (h : Sure a) : Atomic a :=
  fun m => (h m).mono (fun _ _ => id) fun _ _ => False.elim

end Act

namespace Machine

/-! ## Writing the stores -/

theorem atomic_onSymbols (f : Symbols → Except Fault Symbols) : Atomic (onSymbols f) :=
  atomic_get fun _ => atomic_bind (keeps_ofExcept _) fun _ _ => ends_set trivial

theorem atomic_onSymbolsReply {α : Type} (f : Symbols → Except Fault (α × Symbols)) :
    Atomic (onSymbolsReply f) :=
  atomic_get fun _ => atomic_bind (keeps_ofExcept _) fun _ =>
    atomic_then (fun _ => ends_set trivial) fun _ => sure_pure _

theorem atomic_onObjects (f : Objects → Except Fault Objects) : Atomic (onObjects f) :=
  atomic_get fun _ => atomic_bind (keeps_ofExcept _) fun _ _ => ends_set trivial

/-! ## Keywords that write once -/

theorem atomic_runDeclare (i : Invocation) : Atomic (runDeclare i) :=
  atomic_bind (keeps_ofExcept _) fun _ => atomic_then (atomic_onSymbols _) fun _ => sure_pure _

theorem atomic_runAssign (i : Invocation) : Atomic (runAssign i) := by
  refine atomic_bind (keeps_ofExcept _) fun name => atomic_bind (keeps_ofExcept _) fun value => ?_
  dsimp only
  split
  · exact atomic_then (atomic_onSymbols _) fun _ => sure_pure _
  · refine atomic_bind (keeps_lookup _ _) fun target => ?_
    split
    · exact Reads.atomic (keeps_throw_bind _ _)
    · exact atomic_then (atomic_onObjects _) fun _ => sure_pure _

theorem atomic_runArithmetic (op : Arithmetic) (i : Invocation) : Atomic (runArithmetic op i) := by
  refine atomic_bind (keeps_ofExcept _) fun name => ?_
  split
  · refine atomic_bind (keeps_lookup _ _) fun held => ?_
    split
    · exact atomic_bind (keeps_ofExcept _) fun _ =>
        atomic_then (atomic_onSymbols _) fun _ => sure_pure _
    · exact Reads.atomic (keeps_throw _)
  · exact Reads.atomic (keeps_throw _)

theorem atomic_runJoin (i : Invocation) : Atomic (runJoin i) :=
  atomic_bind (keeps_ofExcept _) fun _ => atomic_get fun _ => atomic_bind (keeps_ofExcept _) fun _ =>
    atomic_then (atomic_onSymbols _) fun _ => sure_pure _

theorem sure_runLog (i : Invocation) : Sure (runLog i) :=
  sure_bind (sure_modify _) fun _ => sure_pure _

theorem atomic_addProperty (i : Invocation) : Atomic (addProperty i) := by
  refine atomic_bind (keeps_ofExcept _) fun _ => atomic_get fun m => ?_
  split
  · exact atomic_bind (keeps_ofExcept _) fun _ => atomic_bind (keeps_ofExcept _) fun _ =>
      atomic_onObjects _
  · exact Reads.atomic (keeps_throw _)

theorem atomic_runClass (i : Invocation) : Atomic (runClass i) :=
  atomic_bind (keeps_ofExcept _) fun _ => atomic_then (atomic_onObjects _) fun _ =>
    sure_bind (sure_modify _) fun _ => sure_pure _

theorem atomic_runProperty (i : Invocation) (depth : Nat) : Atomic (runProperty i depth) := by
  refine atomic_bind (keeps_context _) fun c => atomic_get fun m => ?_
  split
  · exact atomic_bind (keeps_ofExcept _) fun _ => atomic_bind (keeps_ofExcept _) fun _ =>
      atomic_then (atomic_onObjects _) fun _ => sure_pure _
  · exact Reads.atomic (keeps_throw _)

theorem atomic_runFunction (i : Invocation) : Atomic (runFunction i) := by
  refine atomic_bind (keeps_ofExcept _) fun _ => atomic_bind (keeps_readParameters _ _ _) fun _ =>
    atomic_get fun _ => atomic_then (atomic_onSymbolsReply _) fun reply => ?_
  split <;> exact sure_pure _

theorem atomic_runExecute (i : Invocation) : Atomic (runExecute i) :=
  atomic_bind (keeps_ofExcept _) fun _ => atomic_get fun _ =>
    atomic_then (atomic_onSymbolsReply _) fun _ => sure_pure _

theorem atomic_runEnd (i : Invocation) : Atomic (runEnd i) := by
  refine atomic_bind (keeps_ofExcept _) fun _ => atomic_then (atomic_onSymbolsReply _) fun reply => ?_
  split <;> exact sure_pure _

theorem atomic_runIterate (i : Invocation) : Atomic (runIterate i) := by
  unfold runIterate
  split
  · refine atomic_bind (keeps_ofExcept _) fun _ => atomic_get fun _ =>
      atomic_then (atomic_onSymbolsReply _) fun reply => ?_
    split <;> exact sure_pure _
  · exact Reads.atomic (keeps_throw _)

theorem reads_runPause (i : Invocation) : Reads (runPause i) :=
  keeps_get fun _ => keeps_bind (keeps_ofExcept _) fun _ =>
    keeps_bind (keeps_modify fun _ => ⟨rfl, rfl, rfl⟩) fun _ => keeps_pure _

theorem sure_runAwaitKey (i : Invocation) : Sure (runAwaitKey i) :=
  sure_bind (sure_modify _) fun _ => sure_pure _

theorem sure_runStop : Sure runStop := sure_bind (sure_modify _) fun _ => sure_pure _

theorem sure_runRestart (i : Invocation) : Sure (runRestart i) :=
  sure_bind (sure_modify _) fun _ => sure_pure _

/-! ## What a failed keyword leaves -/

/-- **What a line that fails can leave.**  Mostly nothing; an object without a variable, when the variable could not
be declared; or a variable that is marked as declared, when it could not be assigned. -/
inductive Trace (m : Machine) (f : Fault) (k : Machine) : Prop
  | nothing : m.SameStores k → Trace m f k
  /-- The variable is declared, or it is left by an earlier pass with something other than an object. -/
  | object (name : String) (className : Option String) :
      (f = .variableDeclared name ∨ ∃ held, held ≠ .object ∧ f = .variableType name held .object) →
      k.symbols = m.symbols →
      k.objects = { m.objects with objects := m.objects.objects.push ⟨className, {}⟩ } →
      k.console = m.console → Trace m f k
  /-- The variable is left by an earlier pass with a value of another tag. -/
  | declared (name : String) (isGlobal : Bool) (var : Variable) (held : Value) (given : Tag) :
      (m.symbols.table isGlobal).find? name = some var → var.declared = false →
      var.value = some held → held.tag ≠ given → f = .variableType name held.tag given →
      k.symbols = m.symbols.withTable isGlobal
        ((m.symbols.table isGlobal).enter name { var with declared := true }) →
      k.objects = m.objects → k.console = m.console → Trace m f k

/-- A trace is seen from any machine with the same stores. -/
theorem Trace.of_sameStores {m m' k : Machine} {f : Fault} (hm : m.SameStores m') (h : m'.Trace f k) :
    m.Trace f k := by
  cases h with
  | nothing hk => exact .nothing (hm.trans hk)
  | object name className hf hsymbols hobjects hconsole =>
    rw [hm.symbols] at hsymbols
    rw [hm.objects] at hobjects
    rw [hm.console] at hconsole
    exact .object name className hf hsymbols hobjects hconsole
  | declared name isGlobal var held given hfound hpending hheld htag hf hsymbols hobjects hconsole =>
    rw [hm.symbols] at hfound hsymbols
    rw [hm.objects] at hobjects
    rw [hm.console] at hconsole
    exact .declared name isGlobal var held given hfound hpending hheld htag hf hsymbols hobjects hconsole

/-- A trace stays when nothing else happens to the stores. -/
theorem Trace.then_sameStores {m k k' : Machine} {f : Fault} (h : m.Trace f k) (hk : k.SameStores k') :
    m.Trace f k' := by
  cases h with
  | nothing hm => exact .nothing (hm.trans hk)
  | object name className hf hsymbols hobjects hconsole =>
    exact .object name className hf (hk.symbols.trans hsymbols) (hk.objects.trans hobjects)
      (hk.console.trans hconsole)
  | declared name isGlobal var held given hfound hpending hheld htag hf hsymbols hobjects hconsole =>
    exact .declared name isGlobal var held given hfound hpending hheld htag hf
      (hk.symbols.trans hsymbols) (hk.objects.trans hobjects) (hk.console.trans hconsole)

/-- A step whose faults leave at most a trace. -/
def Traced {α : Type} (a : Act α) : Prop := ∀ m, Ends a m (fun _ _ => True) fun f k => m.Trace f k

theorem traced_of_atomic {α : Type} {a : Act α} (h : Atomic a) : Traced a :=
  fun m => (h m).mono (fun _ _ => id) fun _ _ => .nothing

/-- The end of an `object` statement fails only at its declaration. -/
theorem declareObject_error (name : String) (id : Nat) (m : Machine) :
    Ends (declareObject name id) m (fun _ _ => True) fun f k => k = m ∧
      (f = .variableDeclared name ∨ ∃ held, held ≠ .object ∧ f = .variableType name held .object) := by
  refine ends_bind (R := fun _ _ => True) ?_ fun _ _ _ => ends_modify_bind (ends_pure trivial)
  refine ends_get (ends_ofExcept_bind (fun _ _ => ends_set trivial) fun f hf => ⟨rfl, ?_⟩)
  rcases Symbols.declare_eq_error hf with hdeclared | ⟨held, given, hgiven, htag, htype⟩
  · exact Or.inl hdeclared
  · cases hgiven
    exact Or.inr ⟨held, htag, htype⟩

/-- **What `object` leaves**: it makes its object before it declares the variable. -/
theorem traced_runObject (i : Invocation) : Traced (runObject i) := by
  intro m
  refine Ends.of_apply_eq ?_ (runObject_apply i m)
  refine ends_ofExcept_bind (fun name _ => ends_ofExcept_bind (fun className _ => ?_) ?_) ?_
  · split
    · rename_i id _
      refine (declareObject_error name id m).mono (fun _ _ h => h) ?_
      rintro f k ⟨rfl, -⟩
      exact .nothing (.refl k)
    · refine ends_bind ((ends_createObject className m).mono (fun _ _ => id) ?_) ?_
      · rintro f _ ⟨-, rfl⟩
        exact .nothing (.refl _)
      · rintro id _ ⟨o, hcreate, rfl⟩
        obtain ⟨-, rfl⟩ := Objects.create_eq_ok hcreate
        refine (declareObject_error name id _).mono (fun _ _ h => h) ?_
        rintro f k ⟨rfl, hf⟩
        exact .object name className hf rfl rfl rfl
  · exact fun f _ => .nothing (.refl m)
  · exact fun f _ => .nothing (.refl m)

/-- **What copying leaves**: it declares its variable before it assigns it. -/
theorem traced_copyName (name : String) (toGlobal : Bool) : Traced (copyName name toGlobal) := by
  intro m
  have hassign : ∀ value m', m.SameStores m' →
      Ends (onSymbols (·.assign name value toGlobal)) m' (fun _ _ => True) fun f k => m.Trace f k :=
    fun value m' hm => (atomic_onSymbols _ m').mono (fun _ _ => id) fun _ _ hk => .nothing (hm.trans hk)
  refine ends_bind (R := fun _ k => k = m) ?_ ?_
  · exact ends_get (ends_ofExcept (fun _ _ => rfl) fun _ _ => .nothing (.refl m))
  rintro value _ rfl
  refine ends_get ?_
  dsimp only
  split
  · refine ends_bind ((ends_onSymbols _ _).mono (fun _ _ => id) ?_) ?_
    · rintro f _ ⟨-, rfl⟩
      exact .nothing (.refl _)
    · rintro _ _ ⟨s, hdeclare, rfl⟩
      refine (ends_onSymbols _ _).mono (fun _ _ _ => trivial) ?_
      rintro f _ ⟨herror, rfl⟩
      obtain ⟨var, held, hfound, hpending, hheld, htag, hf, hs⟩ :=
        Symbols.assign_error_of_declare hdeclare herror
      exact .declared name toGlobal var held _ hfound hpending hheld htag hf hs rfl rfl
  · exact hassign value _ (.refl _)

theorem traced_runExport (i : Invocation) : Traced (runExport i) := by
  refine fun m => ends_ofExcept_bind (fun name _ => ends_get ?_) fun f _ => .nothing (.refl m)
  dsimp only
  split
  · exact ends_bind (traced_copyName name true m) fun _ _ _ => ends_pure trivial
  · exact ends_bind (traced_of_atomic (Reads.atomic (keeps_disallow _)) m) fun _ _ _ => ends_pure trivial

theorem traced_runImport (i : Invocation) : Traced (runImport i) := by
  refine fun m => ends_ofExcept_bind (fun name _ => ends_get ?_) fun f _ => .nothing (.refl m)
  dsimp only
  split
  · exact ends_bind (traced_copyName name false m) fun _ _ _ => ends_pure trivial
  · exact ends_bind (traced_of_atomic (Reads.atomic (keeps_disallow _)) m) fun _ _ _ => ends_pure trivial

/-- A continuation adds a property to a class, or it reads. -/
theorem atomic_runContinuation (i : Invocation) (depth : Nat) : Atomic (runContinuation i depth) := by
  refine atomic_bind (keeps_context _) fun c => ?_
  split
  · split
    · exact Reads.atomic (keeps_pure _)
    · exact Reads.atomic (keeps_bind (keeps_ofExcept _) fun _ => keeps_runCondition i depth)
  · exact Reads.atomic (keeps_pure _)
  · exact atomic_then (atomic_addProperty i) fun _ => sure_pure _
  · exact Reads.atomic (keeps_throw _)

/-- **What a failed keyword leaves.** -/
theorem traced_runBuiltin (b : Builtin) (i : Invocation) (depth : Nat) :
    Traced (runBuiltin b i depth) := by
  cases b with
  | declare => exact traced_of_atomic (atomic_runDeclare i)
  | assign => exact traced_of_atomic (atomic_runAssign i)
  | arithmetic op => exact traced_of_atomic (atomic_runArithmetic op i)
  | join => exact traced_of_atomic (atomic_runJoin i)
  | log => exact traced_of_atomic (sure_runLog i).atomic
  | function => exact traced_of_atomic (atomic_runFunction i)
  | execute => exact traced_of_atomic (atomic_runExecute i)
  | finish => exact traced_of_atomic (atomic_runEnd i)
  | condition => exact traced_of_atomic (Reads.atomic (keeps_runCondition i depth))
  | otherwise => exact traced_of_atomic (Reads.atomic (keeps_runOtherwise depth))
  | continuation => exact traced_of_atomic (atomic_runContinuation i depth)
  | jump => exact traced_of_atomic (Reads.atomic (keeps_runJump i))
  | iterate => exact traced_of_atomic (atomic_runIterate i)
  | newClass => exact traced_of_atomic (atomic_runClass i)
  | newObject => exact traced_runObject i
  | property => exact traced_of_atomic (atomic_runProperty i depth)
  | pause => exact traced_of_atomic (Reads.atomic (reads_runPause i))
  | awaitKey => exact traced_of_atomic (sure_runAwaitKey i).atomic
  | stop => exact traced_of_atomic sure_runStop.atomic
  | restart => exact traced_of_atomic (sure_runRestart i).atomic
  | exportName => exact traced_runExport i
  | importName => exact traced_runImport i

/-! ## What a failed line leaves -/

theorem sameStores_openContext (depth : Nat) (m : Machine) : m.SameStores (m.openContext depth) := by
  obtain ⟨cs, hopen, -⟩ := m.openContext_eq_withContexts depth
  rw [hopen]
  exact ⟨rfl, rfl, rfl⟩

/-- A keyword of a plain machine is a built-in one, or it reads. -/
theorem Plain.traced_runKeyword {m : Machine} (hm : m.Plain) (inv : Invoke) (i : Invocation)
    (depth : Nat) :
    Ends (Machine.runKeyword inv i depth) m (fun _ _ => True) fun f k => m.Trace f k := by
  unfold Machine.runKeyword
  split
  · exact traced_of_atomic (Reads.atomic (keeps_bind (keeps_warn _) fun _ => keeps_pure _)) m
  · refine ends_get ?_
    rw [hm.find?_keyword]
    dsimp only
    split
    · exact ends_ofExcept_bind (fun _ _ => traced_runBuiltin _ i depth m) fun _ _ => .nothing (.refl m)
    · exact ends_throw (.nothing (.refl m))

theorem Plain.traced_dispatch {m : Machine} (hm : m.Plain) (inv : Invoke) (s : Statement) (depth : Nat) :
    Ends (Machine.dispatch inv s depth) m (fun _ _ => True) fun f k => m.Trace f k := by
  unfold Machine.dispatch
  dsimp only
  split
  · exact ends_throw (.nothing (.refl m))
  · refine ends_get (ends_ofExcept_bind (fun _ _ => ends_get ?_) fun _ _ => .nothing (.refl m))
    exact ends_bind (hm.traced_runKeyword inv _ depth) fun _ _ _ => ends_modify_bind (ends_pure trivial)

/-- **What failed nested code leaves**, by induction on the bound of the nesting: before it only contexts have
changed. -/
theorem Plain.traced_runNested (inv : Invoke) (bound : Nat) {m : Machine} (hm : m.Plain)
    (tokens : List Token) (depth : Nat) :
    Ends (runNested inv bound tokens depth) m (fun _ _ => True) fun f k => m.Trace f k := by
  induction bound generalizing m tokens depth with
  | zero => exact ends_pure trivial
  | succ bound ih =>
    cases tokens with
    | nil => exact ends_pure trivial
    | cons first rest =>
      have hcons := runNested_cons inv bound first rest depth m
      split_ifs at hcons
      · exact (ends_pure trivial).of_apply_eq hcons
      · have hopen := sameStores_openContext depth m
        have hm' := hm.openContext depth
        have hdispatch := ((hm'.traced_dispatch inv (Statement.ofTokens m.registry.isLabel first rest)
          depth).and (ends_of_ok fun _ _ => id)).mono (fun _ _ => And.right)
            fun f k h => h.1.of_sameStores hopen
        refine (ends_bind hdispatch fun next k hok => ?_).of_apply_eq hcons
        cases next with
        | following => exact ends_pure trivial
        | line n => exact ends_pure trivial
        | nested skip =>
          obtain ⟨-, cs, -, rfl⟩ := dispatch_nested hok
          have hsame : m.SameStores ((m.openContext depth).withContexts cs) := hopen.trans ⟨rfl, rfl, rfl⟩
          exact (ih (hm'.dispatch hok) _ _).mono (fun _ _ => id) fun _ _ => Trace.of_sameStores hsame

/-- **What a failed line leaves.** -/
theorem Plain.traced_runLine {m : Machine} (hm : m.Plain) (inv : Invoke) (line : String) :
    Ends (Machine.runLine inv line) m (fun _ _ => True) fun f k => m.Trace f k := by
  refine ends_get (ends_ofExcept_bind (fun tokens _ => ?_) fun f _ => .nothing (.refl m))
  refine ends_finally ((hm.traced_runNested inv _ tokens 0).mono (fun _ _ => id) fun f k h => ?_)
  exact h.then_sameStores ⟨rfl, rfl, rfl⟩

theorem sameStores_fail (f : Fault) (m : Machine) : m.SameStores (m.fail f) := by
  obtain ⟨events, hfail⟩ := fail_eq f m
  rw [hfail]
  exact ⟨rfl, rfl, rfl⟩

/-- A line of the script that fails, and the end of the run. -/
theorem Plain.traced_cursorLine {m : Machine} (hm : m.Plain) (inv : Invoke) {line : String}
    (hline : m.script.lines[m.cursor]? = some line) :
    Ends (Machine.guarded (Machine.runCursorLine inv)) m (fun _ _ => True) fun f k => m.Trace f k := by
  have hsame : m.SameStores m.onLine := ⟨rfl, rfl, rfl⟩
  have hrun : Ends (Machine.runCursorLine inv) m (fun _ _ => True) fun f k => m.Trace f k := by
    refine Ends.of_apply_eq ?_ (runCursorLine_apply inv hline)
    refine ends_bind (R := fun _ _ => True) ?_ fun _ _ _ => ends_modify trivial
    exact (hm.onLine.traced_runLine inv line).mono (fun _ _ => id) fun f k h => h.of_sameStores hsame
  exact (ends_guarded hrun).mono (fun _ _ => id) fun f k ⟨l, hl, hk⟩ =>
    hl.then_sameStores (hk ▸ sameStores_fail f l)

/-- What a failed move leaves; it is the move of a statement. -/
theorem Plain.traced_advance {m : Machine} (hm : m.Plain) {t : Stretch} {f : Fault}
    (h : m.advance = some t) (hf : f ∈ t.faults) :
    t.lines = [m.cursor] ∧ t.faults = [f] ∧ m.Trace f t.last ∧ t.last.advance = none := by
  unfold Machine.advance at h
  split at h
  · cases h
    cases hf
  · split at h
    · cases h
      cases hf
    · rename_i line hline
      split_ifs at h with hcounts
      · cases h
        rcases ha : Machine.guarded (Machine.runCursorLine (invoke m.nesting)) m with ⟨f' | x, k⟩
        · rw [ha] at hf
          obtain rfl := List.mem_singleton.mp hf
          exact ⟨rfl, rfl, (hm.traced_cursorLine _ hline).of_error ha, advance_of_guarded_error ha⟩
        · rw [ha] at hf
          cases hf
      · cases h
        cases hf
  · cases h

/-- **A stretch that fails ends with the line that fails.** -/
theorem Plain.stretch_fault {m : Machine} (hm : m.Plain) {n : Nat} {t : Stretch} {f : Fault}
    (ht : m.stretch n = t) (hf : t.faults = [f]) :
    ∃ j, let k := (m.stretch j).last
      k.advance = some ⟨[k.cursor], [f], t.last⟩ ∧ k.Trace f t.last := by
  induction n generalizing m t with
  | zero =>
    obtain rfl := ht
    cases hf
  | succ n ih =>
    cases hmove : m.advance with
    | none =>
      rw [stretch_of_rest hmove] at ht
      obtain rfl := ht
      cases hf
    | some u =>
      rw [stretch_succ hmove] at ht
      obtain rfl := ht
      rcases hu : u.faults with _ | ⟨f', more⟩
      · -- The first move succeeds, so a later one fails.
        rw [Stretch.andThen_faults, hu, List.nil_append] at hf
        obtain ⟨j, hj⟩ := ih (hm.advance hmove) rfl hf
        refine ⟨j + 1, ?_⟩
        rw [stretch_succ hmove]
        exact hj
      · obtain ⟨hlines, hfaults, htrace, hrest⟩ := hm.traced_advance (f := f') hmove (by rw [hu]; exact .head _)
        rw [stretch_of_rest hrest] at hf ⊢
        rw [Stretch.andThen_faults, hfaults, List.append_nil] at hf
        cases hf
        obtain ⟨lines, faults, last⟩ := u
        obtain rfl : lines = [m.cursor] := hlines
        obtain rfl : faults = [f] := hfaults
        exact ⟨0, hmove, htrace⟩

/-- A line from outside that fails. -/
theorem Plain.traced_executeWith {m : Machine} (hm : m.Plain) (inv : Invoke) (text : String) :
    Ends (Machine.executeWith inv text) m (fun _ _ => True) fun f k => m.Trace f k := by
  have hsame : m.SameStores { m with executing := none } := ⟨rfl, rfl, rfl⟩
  have hm' : Plain { m with executing := none } := ⟨hm.keywords, hm.coherent, hm.nonempty⟩
  unfold Machine.executeWith
  dsimp only
  split
  · refine ends_modify_bind (ends_bind ((hm'.traced_runLine _ _).mono (fun _ _ => id) fun f k h =>
      h.of_sameStores hsame) ?_)
    rintro target k -
    cases target with
    | none => exact ends_pure trivial
    | some n => exact ends_modify trivial
  · exact ends_pure trivial

/-- **What a failed line leaves.**  In a machine reached without extensions, a line that fails changes nothing of
what the script has made, but for two cases: an `object` statement can leave its object, and a copy between scopes
can leave its variable marked as declared (`Trace`).  So it is for a line that a move of a run, a tick or a run
executes, the trace being that of the last line, and for a line of the host. -/
theorem failed_line_trace {m : Machine} (hm : m.Reachable) {f : Fault} :
    (∀ t, m.advance = some t → f ∈ t.faults → m.Trace f t.last) ∧
    (∀ k, Machine.tick m = (.error f, k) → ∃ j, let last := (m.stretch j).last
      last.advance = some ⟨[last.cursor], [f], k⟩ ∧ last.Trace f k) ∧
    (∀ fuel limit k, m.run fuel limit = some (.error f, k) → ∃ j, let last := (m.stretch j).last
      last.advance = some ⟨[last.cursor], [f], k⟩ ∧ last.Trace f k) ∧
    (∀ text k, Machine.execute text m = (.error f, k) → m.Trace f k) := by
  refine ⟨fun t h hf => (hm.plain.traced_advance h hf).2.2.1, fun k h => ?_, fun fuel limit k h => ?_,
    fun text k h => ?_⟩
  · obtain ⟨n, -, hn⟩ := tick_reaches hm.avoidsExtensions
    rw [tickStretch, h] at hn
    exact hm.plain.stretch_fault hn rfl
  · obtain ⟨⟨n, -, hn⟩, -⟩ := runFrom_reaches fuel hm.avoidsExtensions h
    exact hm.plain.stretch_fault hn rfl
  · rw [execute_apply] at h
    exact (hm.plain.traced_executeWith _ text).of_error h

/-! ## Lines that leave a trace -/

/-- A script before a second `object` statement for its variable. -/
def beforeSecondObject : Machine := ((started "object a\nobject a").stretch 1).last

/-- A script in its second pass, before it exports a number under the name of a global text of the first pass. -/
def beforeExport : Machine :=
  ((started ("var n 0\nif \\n\\ = 1 jump 6\nglobal var a x\nset n 1\nnon-destructive restart\n" ++
    "var a 1\nexport a")).stretch 8).last

theorem beforeSecondObject_reachable : beforeSecondObject.Reachable := (started_reachable _).stretch 1

theorem beforeExport_reachable : beforeExport.Reachable := (started_reachable _).stretch 8

/-- The export fails and leaves its variable marked as declared. -/
theorem exists_failing_export : ∃ t f, beforeExport.advance = some t ∧ t.faults = [f] ∧
    (!(beforeExport.symbols.globals.find? "a").any (·.declared) &&
      (t.last.symbols.globals.find? "a").any (·.declared)) = true := by
  have hexport : beforeExport.advance.any (fun t => t.faults.length == 1 &&
      (!(beforeExport.symbols.globals.find? "a").any (·.declared) &&
        (t.last.symbols.globals.find? "a").any (·.declared))) = true := by
    decide +kernel
  exact exists_failing_move hexport

/-- A line that fails can leave an object, and it can leave a variable declared that was not. -/
theorem failed_lines_leave_traces :
    (∃ (m : Machine) (t : Stretch) (f : Fault), m.Reachable ∧ m.advance = some t ∧ t.faults = [f] ∧
      (t.last.objects.objects.size == m.objects.objects.size + 1) = true) ∧
    (∃ (m : Machine) (t : Stretch) (f : Fault), m.Reachable ∧ m.advance = some t ∧ t.faults = [f] ∧
      (!(m.symbols.globals.find? "a").any (·.declared) &&
        (t.last.symbols.globals.find? "a").any (·.declared)) = true) := by
  have hobject : beforeSecondObject.advance.any (fun t => t.faults.length == 1 &&
      t.last.objects.objects.size == beforeSecondObject.objects.objects.size + 1) = true := by
    decide +kernel
  obtain ⟨t, f, hleft⟩ := exists_failing_move hobject
  obtain ⟨t', f', hleft'⟩ := exists_failing_export
  exact ⟨⟨beforeSecondObject, t, f, beforeSecondObject_reachable, hleft⟩,
    ⟨beforeExport, t', f', beforeExport_reachable, hleft'⟩⟩

/-- The trace of a failed export. -/
theorem failed_line_trace_of_export : ∃ t f, beforeExport.Reachable ∧ beforeExport.advance = some t ∧
    f ∈ t.faults ∧ beforeExport.Trace f t.last := by
  obtain ⟨t, f, ht, hf, -⟩ := exists_failing_export
  have hmem : f ∈ t.faults := by
    rw [hf]
    exact List.mem_singleton_self f
  exact ⟨t, f, beforeExport_reachable, ht, hmem, (failed_line_trace beforeExport_reachable).1 t ht hmem⟩

end Machine

end LineScript
