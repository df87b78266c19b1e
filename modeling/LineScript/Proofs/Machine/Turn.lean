/-
# What a line does to a run

Statements change what a script has made, and most of them leave the run itself where it was: its mode and the wait
that is saved, its calls and its iteration, its cursor (`Machine.SamePlace`).  `Machine.Turn` lists what else a line
can do: it calls, returns or iterates, it halts or waits, or it resets the machine.  A line that fails does none of
it.

* `keeps_runSteady`: all keywords but seven leave the run where it was;
* `turn_runBuiltin`: what each keyword does to a run;
* `Plain.turn_runLine`: what a line does, its nested code included;
* `Plain.move`, `Plain.turn_execute`: what a move of a run does, and what a line of the host does.
-/
import LineScript.Proofs.Machine.Nesting
import LineScript.Proofs.Symbols.Operation

namespace LineScript

open Act

/-! ## Where a run is -/

/-- The run is where it was: what has changed is what the script has made, and the events. -/
structure Machine.SamePlace (m k : Machine) : Prop where
  settings : k.settings = m.settings
  script : k.script = m.script
  displayName : k.displayName = m.displayName
  registry : k.registry = m.registry
  calls : k.symbols.calls = m.symbols.calls
  iteration : k.symbols.iteration = m.symbols.iteration
  mode : k.mode = m.mode
  savedWait : k.savedWait = m.savedWait
  cursor : k.cursor = m.cursor
  executing : k.executing = m.executing

namespace Machine

theorem SamePlace.refl (m : Machine) : m.SamePlace m := by
  constructor <;> rfl

theorem SamePlace.trans {m k l : Machine} (h : m.SamePlace k) (h' : k.SamePlace l) : m.SamePlace l where
  settings := h'.settings.trans h.settings
  script := h'.script.trans h.script
  displayName := h'.displayName.trans h.displayName
  registry := h'.registry.trans h.registry
  calls := h'.calls.trans h.calls
  iteration := h'.iteration.trans h.iteration
  mode := h'.mode.trans h.mode
  savedWait := h'.savedWait.trans h.savedWait
  cursor := h'.cursor.trans h.cursor
  executing := h'.executing.trans h.executing

theorem samePlace_emit (m : Machine) (e : Event) : m.SamePlace (m.emit e) := by
  constructor <;> rfl

theorem samePlace_withContexts (m : Machine) (cs : List Context) : m.SamePlace (m.withContexts cs) := by
  constructor <;> rfl

theorem samePlace_openContext (m : Machine) (depth : Nat) : m.SamePlace (m.openContext depth) := by
  obtain ⟨cs, hopen, -⟩ := m.openContext_eq_withContexts depth
  rw [hopen]
  exact m.samePlace_withContexts cs

theorem samePlace_leaveContext (m : Machine) (keyword : String) (depth : Nat) :
    m.SamePlace (m.leaveContext keyword depth) := by
  unfold leaveContext
  split_ifs
  · exact .refl m
  · exact m.samePlace_withContexts _

/-- Other names with the same calls and the same iteration. -/
theorem samePlace_withSymbols (m : Machine) {s : Symbols} (hcalls : s.calls = m.symbols.calls)
    (hiteration : s.iteration = m.symbols.iteration) : m.SamePlace { m with symbols := s } := by
  constructor <;> first | rfl | assumption

theorem samePlace_withObjects (m : Machine) (o : Objects) : m.SamePlace { m with objects := o } := by
  constructor <;> rfl

/-! ## Keywords that change the stores -/

/-- A relation that overlooks values, too: those of variables, those of properties of objects, and what is printed. -/
class OverlookingValues (R : Machine → Machine → Prop) : Prop extends Overlooking R where
  table (m : Machine) (isGlobal : Bool) (t : Catalog Variable) :
    R m { m with symbols := m.symbols.withTable isGlobal t }
  property (m : Machine) {id : Nat} {name : String} {value : Value} {o : Objects} :
    m.objects.setProperty id name value = .ok o → R m { m with objects := o }
  print (m : Machine) (message : String) : R m (m.print message)

section OverlookingValues

variable {R : Machine → Machine → Prop} [hR : OverlookingValues R]

theorem keeps_setProperty (id : Nat) (name : String) (value : Value) :
    Keeps R (onObjects (·.setProperty id name value)) := by
  refine fun m => (ends_onObjects _ m).mono ?_ ?_
  · rintro _ _ ⟨o, ho, rfl⟩
    exact hR.property m ho
  · rintro _ _ ⟨-, rfl⟩
    exact hR.refl _

/-- An operation that enters a variable. -/
theorem keeps_onVariable {f : Symbols → Except Fault Symbols}
    (hf : ∀ s s', f s = .ok s' → ∃ isGlobal t, s' = s.withTable isGlobal t) : Keeps R (onSymbols f) := by
  refine fun m => (ends_onSymbols f m).mono ?_ ?_
  · rintro _ _ ⟨s, hs, rfl⟩
    obtain ⟨isGlobal, t, rfl⟩ := hf _ _ hs
    exact hR.table m isGlobal t
  · rintro _ _ ⟨-, rfl⟩
    exact hR.refl _

theorem keeps_declare (name : String) (initial : Option Value) (isGlobal : Bool) :
    Keeps R (onSymbols (·.declare name initial isGlobal)) := by
  refine keeps_onVariable fun s s' hs => ?_
  obtain ⟨v, rfl⟩ := Symbols.declare_eq_ok hs
  exact ⟨isGlobal, _, rfl⟩

theorem keeps_assign (name : String) (value : Value) (isGlobal : Bool) :
    Keeps R (onSymbols (·.assign name value isGlobal)) := by
  refine keeps_onVariable fun s s' hs => ?_
  obtain ⟨v, rfl⟩ := Symbols.assign_eq_ok hs
  exact ⟨isGlobal, _, rfl⟩

theorem keeps_runDeclare (i : Invocation) : Keeps R (runDeclare i) :=
  keeps_bind (keeps_ofExcept _) fun _ => keeps_bind (keeps_declare _ _ _) fun _ => keeps_pure _

theorem keeps_runAssign (i : Invocation) : Keeps R (runAssign i) := by
  refine keeps_bind (keeps_ofExcept _) fun name => keeps_bind (keeps_ofExcept _) fun value => ?_
  dsimp only
  split
  · exact keeps_bind (keeps_assign _ _ _) fun _ => keeps_pure _
  · refine keeps_bind (keeps_lookup _ _) fun target => ?_
    split
    · exact keeps_throw_bind _ _
    · exact keeps_bind (keeps_setProperty _ _ _) fun _ => keeps_pure _

theorem keeps_runArithmetic (op : Arithmetic) (i : Invocation) : Keeps R (runArithmetic op i) := by
  refine keeps_bind (keeps_ofExcept _) fun name => ?_
  split
  · refine keeps_bind (keeps_lookup _ _) fun held => ?_
    split
    · exact keeps_bind (keeps_ofExcept _) fun _ => keeps_bind (keeps_assign _ _ _) fun _ => keeps_pure _
    · exact keeps_throw _
  · exact keeps_throw _

theorem keeps_runJoin (i : Invocation) : Keeps R (runJoin i) :=
  keeps_bind (keeps_ofExcept _) fun _ => keeps_get fun _ => keeps_bind (keeps_ofExcept _) fun _ =>
    keeps_bind (keeps_assign _ _ _) fun _ => keeps_pure _

theorem keeps_runLog (i : Invocation) : Keeps R (runLog i) :=
  keeps_bind (keeps_modify fun m => hR.print m _) fun _ => keeps_pure _

theorem keeps_copyName (name : String) (toGlobal : Bool) : Keeps R (copyName name toGlobal) := by
  refine keeps_bind (keeps_lookup _ _) fun value => keeps_get fun m => ?_
  dsimp only
  split
  · exact keeps_bind (keeps_declare _ _ _) fun _ => keeps_assign _ _ _
  · exact keeps_assign _ _ _

theorem keeps_runExport (i : Invocation) : Keeps R (runExport i) := by
  refine keeps_bind (keeps_ofExcept _) fun name => keeps_get fun m => ?_
  dsimp only
  split
  · exact keeps_bind (keeps_copyName _ _) fun _ => keeps_pure _
  · exact keeps_bind (keeps_disallow _) fun _ => keeps_pure _

theorem keeps_runImport (i : Invocation) : Keeps R (runImport i) := by
  refine keeps_bind (keeps_ofExcept _) fun name => keeps_get fun m => ?_
  dsimp only
  split
  · exact keeps_bind (keeps_copyName _ _) fun _ => keeps_pure _
  · exact keeps_bind (keeps_disallow _) fun _ => keeps_pure _

theorem keeps_runProperty (i : Invocation) (depth : Nat) : Keeps R (runProperty i depth) := by
  refine keeps_bind (keeps_context _) fun c => keeps_get fun m => ?_
  split
  · exact keeps_bind (keeps_ofExcept _) fun _ => keeps_bind (keeps_ofExcept _) fun _ =>
      keeps_bind (keeps_setProperty _ _ _) fun _ => keeps_pure _
  · exact keeps_throw _

end OverlookingValues

/-- A relation that overlooks all that a script makes: its variables, its objects and its output. -/
class OverlookingObjects (R : Machine → Machine → Prop) : Prop extends OverlookingValues R where
  objects (m : Machine) (o : Objects) : R m { m with objects := o }
  property m _ _ _ o _ := objects m o

section OverlookingObjects

variable {R : Machine → Machine → Prop} [hR : OverlookingObjects R]

theorem keeps_onObjects (f : Objects → Except Fault Objects) : Keeps R (onObjects f) := by
  refine fun m => (ends_onObjects f m).mono ?_ ?_
  · rintro _ _ ⟨o, -, rfl⟩
    exact hR.objects m o
  · rintro _ _ ⟨-, rfl⟩
    exact hR.refl _

theorem keeps_createObject (className : Option String) : Keeps R (createObject className) := by
  refine fun m => (ends_createObject className m).mono ?_ ?_
  · rintro _ _ ⟨o, -, rfl⟩
    exact hR.objects m o
  · rintro _ _ ⟨-, rfl⟩
    exact hR.refl _

theorem keeps_addProperty (i : Invocation) : Keeps R (addProperty i) := by
  refine keeps_bind (keeps_ofExcept _) fun _ => keeps_get fun m => ?_
  split
  · exact keeps_bind (keeps_ofExcept _) fun _ => keeps_bind (keeps_ofExcept _) fun _ => keeps_onObjects _
  · exact keeps_throw _

theorem keeps_runContinuation (i : Invocation) (depth : Nat) : Keeps R (runContinuation i depth) := by
  refine keeps_bind (keeps_context _) fun c => ?_
  split
  · split
    · exact keeps_pure _
    · exact keeps_bind (keeps_ofExcept _) fun _ => keeps_runCondition i depth
  · exact keeps_pure _
  · exact keeps_bind (keeps_addProperty i) fun _ => keeps_pure _
  · exact keeps_throw _

end OverlookingObjects

/-- A relation that overlooks which class and which object are open to continuation lines, too. -/
class OverlookingStores (R : Machine → Machine → Prop) : Prop extends OverlookingObjects R where
  opened (m : Machine) (className : Option String) (id : Option Nat) :
    R m { m with openClass := className, openObject := id }

section OverlookingStores

variable {R : Machine → Machine → Prop} [hR : OverlookingStores R]

theorem keeps_runClass (i : Invocation) : Keeps R (runClass i) :=
  keeps_bind (keeps_ofExcept _) fun _ => keeps_bind (keeps_onObjects _) fun _ =>
    keeps_bind (keeps_modify fun m => hR.opened m _ m.openObject) fun _ => keeps_pure _

theorem keeps_declareObject (name : String) (id : Nat) : Keeps R (declareObject name id) :=
  keeps_bind (keeps_declare _ _ _) fun _ =>
    keeps_bind (keeps_modify fun m => hR.opened m m.openClass _) fun _ => keeps_pure _

theorem keeps_runObject (i : Invocation) : Keeps R (runObject i) := by
  refine keeps_bind (keeps_ofExcept _) fun name => keeps_bind (keeps_ofExcept _) fun className =>
    keeps_get fun m => ?_
  dsimp only
  split
  · exact keeps_bind (keeps_pure _) (keeps_declareObject name)
  · exact keeps_bind (keeps_createObject _) (keeps_declareObject name)

end OverlookingStores

/-! ## Keywords that leave the run where it was -/

instance overlookingStores_samePlace : OverlookingStores SamePlace where
  refl := SamePlace.refl
  trans := SamePlace.trans
  emit := samePlace_emit
  contexts := samePlace_withContexts
  table m isGlobal t := by cases isGlobal <;> exact m.samePlace_withSymbols rfl rfl
  objects := samePlace_withObjects
  print m message := by constructor <;> rfl
  opened m className id := by constructor <;> rfl

theorem keeps_declareFunction (name : String) (params : List Parameter) (line : Nat) :
    Keeps SamePlace (onSymbolsReply (·.declareFunction name params line)) := by
  refine fun m => (ends_onSymbolsReply _ m).mono ?_ ?_
  · rintro d _ ⟨s, hs, rfl⟩
    obtain ⟨-, ⟨-, rfl⟩ | ⟨f, finish, -, -, -, -, rfl⟩⟩ := Symbols.declareFunction_eq_ok hs <;>
      exact m.samePlace_withSymbols rfl rfl
  · rintro _ _ ⟨-, rfl⟩
    exact .refl _

theorem keeps_runFunction (i : Invocation) : Keeps SamePlace (runFunction i) := by
  refine keeps_bind (keeps_ofExcept _) fun _ => keeps_bind (keeps_readParameters _ _ _) fun _ =>
    keeps_get fun _ => keeps_bind (keeps_declareFunction _ _ _) fun reply => ?_
  split <;> exact keeps_pure _

end Machine

/-- Does a keyword leave the run where it was? -/
def Builtin.isSteady : Builtin → Bool
  | .execute | .finish | .iterate | .pause | .awaitKey | .stop | .restart => false
  | _ => true

namespace Machine

/-- Keywords that leave the run where it was keep whatever overlooks the stores, but for the one that declares
functions. -/
theorem keeps_runStoring {R : Machine → Machine → Prop} [OverlookingStores R] {b : Builtin} (hb : b.isSteady = true)
    (hfunction : b ≠ .function) (i : Invocation) (depth : Nat) : Keeps R (runBuiltin b i depth) := by
  cases b with
  | declare => exact keeps_runDeclare i
  | assign => exact keeps_runAssign i
  | arithmetic op => exact keeps_runArithmetic op i
  | join => exact keeps_runJoin i
  | log => exact keeps_runLog i
  | function => exact absurd rfl hfunction
  | condition => exact keeps_runCondition i depth
  | otherwise => exact keeps_runOtherwise depth
  | continuation => exact keeps_runContinuation i depth
  | jump => exact keeps_runJump i
  | newClass => exact keeps_runClass i
  | newObject => exact keeps_runObject i
  | property => exact keeps_runProperty i depth
  | exportName => exact keeps_runExport i
  | importName => exact keeps_runImport i
  | execute | finish | iterate | pause | awaitKey | stop | restart => cases hb

/-- **All keywords but those that call, return, iterate, halt, wait or reset leave the run where it was.** -/
theorem keeps_runSteady {b : Builtin} (hb : b.isSteady = true) (i : Invocation) (depth : Nat) :
    Keeps SamePlace (runBuiltin b i depth) := by
  by_cases hfunction : b = .function
  · subst hfunction
    exact keeps_runFunction i
  · exact keeps_runStoring hb hfunction i depth

/-! ## Turns of a run -/

/-- **What a line that succeeds does to a run**, `keywords` being those that it can have run, and `next` the line
that it goes on with, if it is not the one behind it. -/
inductive Turn (m : Machine) (keywords : List String) (next : Option Nat) (k : Machine) : Prop
  | steady : m.SamePlace k → Turn m keywords next k
  /-- A call, from the line under the cursor. -/
  | called (name : String) (args : List Value) (start : Nat) (s : Symbols) :
      m.symbols.call name args m.cursor = .ok (start, s) → next = some start →
      SamePlace { m with symbols := s } k → Turn m keywords next k
  /-- The first round of an iteration, from the line under the cursor. -/
  | iterated (name : String) (items : List Value) (start : Nat) (s : Symbols) :
      m.symbols.iterate name items m.cursor = .ok (some start, s) → next = some start →
      SamePlace { m with symbols := s } k → Turn m keywords next k
  /-- A return from a call, or another round of an iteration. -/
  | returned (name : String) (line : Nat) (s : Symbols) :
      m.symbols.finishCall name = .ok (.resume line, s) → next = some line →
      SamePlace { m with symbols := s } k → Turn m keywords next k
  /-- A halt, or a wait. -/
  | halted (mode : Mode) : "pause" ∈ keywords ∨ "awaitkey" ∈ keywords →
      mode = .paused ∨ (∃ w, mode = .waiting w) → next = none →
      SamePlace { m with mode := mode } k → Turn m keywords next k
  /-- The machine is as good as new, or as good as in a new pass. -/
  | reset (mode : Mode) : mode = .idle ∧ "stop" ∈ keywords ∨ mode = m.mode ∧ "restart" ∈ keywords →
      next = some 0 → SamePlace { m.hardReset with mode := mode } k → Turn m keywords next k

theorem Turn.trans {m k l : Machine} {keywords : List String} {next : Option Nat}
    (h : m.Turn keywords next k) (hl : k.SamePlace l) : m.Turn keywords next l := by
  cases h with
  | steady hk => exact .steady (hk.trans hl)
  | called name args start s hcall hnext hk => exact .called name args start s hcall hnext (hk.trans hl)
  | iterated name items start s hok hnext hk => exact .iterated name items start s hok hnext (hk.trans hl)
  | returned name line s hok hnext hk => exact .returned name line s hok hnext (hk.trans hl)
  | halted mode hkeyword hmode hnext hk => exact .halted mode hkeyword hmode hnext (hk.trans hl)
  | reset mode hmode hnext hk => exact .reset mode hmode hnext (hk.trans hl)

/-- No turn leads to another script. -/
theorem Turn.script_eq {m k : Machine} {keywords : List String} {next : Option Nat} (h : m.Turn keywords next k) :
    k.script = m.script := by
  cases h with
  | steady hk => exact hk.script
  | called name args start s hcall hnext hk => exact hk.script
  | iterated name items start s hok hnext hk => exact hk.script
  | returned name line s hok hnext hk => exact hk.script
  | halted mode hkeyword hmode hnext hk => exact hk.script
  | reset mode hmode hnext hk => exact hk.script

/-- No turn leads to other extensions. -/
theorem Turn.registry_eq {m k : Machine} {keywords : List String} {next : Option Nat} (h : m.Turn keywords next k) :
    k.registry = m.registry := by
  cases h with
  | steady hk => exact hk.registry
  | called name args start s hcall hnext hk => exact hk.registry
  | iterated name items start s hok hnext hk => exact hk.registry
  | returned name line s hok hnext hk => exact hk.registry
  | halted mode hkeyword hmode hnext hk => exact hk.registry
  | reset mode hmode hnext hk => exact hk.registry

/-- Turns do not look at contexts, and more keywords can have led to them. -/
theorem Turn.of_withContexts {m k : Machine} {cs : List Context} {keywords keywords' : List String}
    {next : Option Nat} (h : (m.withContexts cs).Turn keywords next k) (hsub : keywords ⊆ keywords') :
    m.Turn keywords' next k := by
  have hplace : ∀ {s : Symbols} {mode : Mode},
      SamePlace { m with symbols := s, mode := mode } { m.withContexts cs with symbols := s, mode := mode } := by
    intro s mode
    constructor <;> rfl
  cases h with
  | steady hk => exact .steady ((m.samePlace_withContexts cs).trans hk)
  | called name args start s hcall hnext hk => exact .called name args start s hcall hnext (hplace.trans hk)
  | iterated name items start s hok hnext hk => exact .iterated name items start s hok hnext (hplace.trans hk)
  | returned name line s hok hnext hk => exact .returned name line s hok hnext (hplace.trans hk)
  | halted mode hkeyword hmode hnext hk =>
    exact .halted mode (hkeyword.imp (hsub ·) (hsub ·)) hmode hnext (hplace.trans hk)
  | reset mode hmode hnext hk =>
    exact .reset mode (hmode.imp (And.imp_right (hsub ·)) (And.imp_right (hsub ·))) hnext hk

end Machine

/-- The line that a run goes on with behind a keyword, if it is not the next one. -/
def Next.line? : Next → Option Nat
  | .line n => some n
  | .following | .nested _ => none

namespace Machine

/-! ## Keywords that turn a run -/

/-- A keyword that ends with a turn, or in a fault that leaves the run where it was. -/
def Turns (b : Builtin) (a : Act Next) : Prop :=
  ∀ m, Ends a m (fun next k => m.Turn [b.name] next.line? k) fun _ k => m.SamePlace k

/-- An operation on the calls that fails leaves the run where it was. -/
theorem turns_reply {α : Type} {b : Builtin} {f : Symbols → Except Fault (α × Symbols)} {k : α → Next}
    {m : Machine} (hk : ∀ x s, f m.symbols = .ok (x, s) → m.Turn [b.name] (k x).line? { m with symbols := s }) :
    Ends (onSymbolsReply f >>= fun x => pure (k x)) m (fun next l => m.Turn [b.name] next.line? l)
      fun _ l => m.SamePlace l := by
  refine ends_bind ((ends_onSymbolsReply f m).mono (fun _ _ => id) ?_) ?_
  · rintro _ _ ⟨-, rfl⟩
    exact .refl _
  · rintro x _ ⟨s, hs, rfl⟩
    exact ends_pure (hk x s hs)

theorem turns_runExecute (i : Invocation) : Turns .execute (runExecute i) := by
  refine fun m => ends_ofExcept_bind (fun name _ => ends_get ?_) fun _ _ => .refl m
  exact turns_reply fun start s hs => .called _ _ start s hs rfl (.refl _)

theorem turns_runEnd (i : Invocation) : Turns .finish (runEnd i) := by
  refine fun m => ends_ofExcept_bind (fun name _ => ?_) fun _ _ => .refl m
  refine ends_bind ((ends_onSymbolsReply _ m).mono (fun _ _ => id) ?_) ?_
  · rintro _ _ ⟨-, rfl⟩
    exact .refl _
  · rintro reply _ ⟨s, hs, rfl⟩
    cases reply with
    | resume line => exact ends_pure (.returned name line s hs rfl (.refl _))
    | ignored =>
      -- An `end` that is ignored changes no calls.
      obtain ⟨f, -, ⟨-, rfl, -⟩ | ⟨frame, outer, -, -, ⟨-, hreply, -⟩ | ⟨it, -, ⟨_, _, -, -, hreply, -⟩ |
        ⟨-, hreply, -⟩⟩⟩⟩ := Symbols.finishCall_eq_ok hs
      · exact ends_pure (.steady (.refl m))
      all_goals cases hreply

theorem turns_runIterate (i : Invocation) : Turns .iterate (runIterate i) := by
  intro m
  unfold runIterate
  split
  · rename_i items _
    refine ends_ofExcept_bind (fun name _ => ends_get ?_) fun _ _ => .refl m
    refine ends_bind ((ends_onSymbolsReply _ m).mono (fun _ _ => id) ?_) ?_
    · rintro _ _ ⟨-, rfl⟩
      exact .refl _
    · rintro reply _ ⟨s, hs, rfl⟩
      cases reply with
      | some start => exact ends_pure (.iterated name items start s hs rfl (.refl _))
      | none =>
        obtain rfl := Symbols.iterate_eq_ok_none hs
        exact ends_pure (.steady (.refl m))
  · exact ends_throw (.refl m)

/-- A pause halts, waits, or lets the run go on. -/
theorem pauseMode_eq_ok {current mode : Mode} {ticks : Option Value} (h : pauseMode current ticks = .ok mode) :
    mode = current ∨ mode = .paused ∨ ∃ w, mode = .waiting w := by
  unfold pauseMode at h
  split at h
  · cases h
    exact Or.inr (Or.inl rfl)
  · split at h
    · rename_i n _
      split_ifs at h
      · cases h
        exact Or.inl rfl
      · cases h
        exact Or.inr (Or.inr ⟨_, rfl⟩)
    · cases h

theorem turns_runPause (i : Invocation) : Turns .pause (runPause i) := by
  refine fun m => ends_get (ends_ofExcept_bind (fun mode hmode => ?_) fun _ _ => .refl m)
  refine ends_modify_bind (ends_pure ?_)
  rcases pauseMode_eq_ok hmode with rfl | hhalt
  · exact .steady (.refl m)
  · exact .halted mode (Or.inl (List.mem_singleton_self _)) hhalt rfl (.refl _)

theorem turns_runAwaitKey (i : Invocation) : Turns .awaitKey (runAwaitKey i) := by
  refine fun m => ends_modify_bind (ends_pure ?_)
  exact .halted _ (Or.inr (List.mem_singleton_self _)) (Or.inr ⟨_, rfl⟩) rfl (.refl _)

theorem turns_runStop : Turns .stop runStop := by
  refine fun m => ends_modify_bind (ends_pure ?_)
  exact .reset .idle (Or.inl ⟨rfl, List.mem_singleton_self _⟩) rfl (.refl _)

/-- A soft reset leads to the same place as a hard one. -/
theorem turns_runRestart (i : Invocation) : Turns .restart (runRestart i) := by
  refine fun m => ends_modify_bind (ends_pure ?_)
  refine .reset m.mode (Or.inr ⟨rfl, List.mem_singleton_self _⟩) rfl ?_
  split <;> constructor <;> rfl

/-- **What a keyword does to a run.** -/
theorem turn_runBuiltin (b : Builtin) (i : Invocation) (depth : Nat) : Turns b (runBuiltin b i depth) := by
  cases hb : b.isSteady with
  | true => exact fun m => (keeps_runSteady hb i depth m).mono (fun _ _ => .steady) fun _ _ => id
  | false =>
    cases b with
    | execute => exact turns_runExecute i
    | finish => exact turns_runEnd i
    | iterate => exact turns_runIterate i
    | pause => exact turns_runPause i
    | awaitKey => exact turns_runAwaitKey i
    | stop => exact turns_runStop
    | restart => exact turns_runRestart i
    | _ => cases hb

/-! ## Statements and lines -/

/-- The name of a keyword is what it is found by. -/
theorem name_of_ofName? {name : String} {b : Builtin} (h : Builtin.ofName? name = some b) : b.name = name := by
  have hname := List.find?_some h
  simpa using hname

/-- What a keyword of a plain machine does to a run. -/
theorem Plain.turn_runKeyword {m : Machine} (hm : m.Plain) (inv : Invoke) (i : Invocation) (depth : Nat) :
    Ends (Machine.runKeyword inv i depth) m (fun next k => m.Turn [i.keyword] next.line? k)
      fun _ k => m.SamePlace k := by
  unfold Machine.runKeyword
  split
  · exact (keeps_bind (keeps_warn _) (fun _ => keeps_pure _) m).mono (fun _ _ => .steady) fun _ _ => id
  · refine ends_get ?_
    rw [hm.find?_keyword]
    dsimp only
    split
    · rename_i b hb
      have hturn := turn_runBuiltin b i depth m
      rw [name_of_ofName? hb] at hturn
      exact ends_ofExcept_bind (fun _ _ => hturn) fun _ _ => .refl m
    · exact ends_throw (.refl m)

theorem Plain.turn_dispatch {m : Machine} (hm : m.Plain) (inv : Invoke) {s : Statement} (depth : Nat) :
    Ends (Machine.dispatch inv s depth) m
      (fun next k => s.keyword.isWord = true ∧ m.Turn [s.keyword.text] next.line? k) fun _ k => m.SamePlace k := by
  unfold Machine.dispatch
  dsimp only
  split
  · exact ends_throw (.refl m)
  · rename_i hword
    have hword : s.keyword.isWord = true := by simpa using hword
    refine ends_get (ends_ofExcept_bind (fun _ _ => ends_get ?_) fun _ _ => .refl m)
    refine ends_bind (hm.turn_runKeyword inv _ depth) fun next k hk => ends_modify_bind (ends_pure ⟨hword, ?_⟩)
    exact hk.trans (k.samePlace_leaveContext _ _)

/-- The words of a row of tokens: its keywords are among them. -/
def wordsOf (tokens : List Token) : List String := (tokens.filter (·.isWord)).map (·.text)

theorem mem_wordsOf {tokens : List Token} {t : Token} (h : t ∈ tokens) (hword : t.isWord = true) :
    t.text ∈ wordsOf tokens :=
  List.mem_map_of_mem (List.mem_filter.mpr ⟨h, hword⟩)

theorem wordsOf_subset {tokens tokens' : List Token} (h : tokens ⊆ tokens') : wordsOf tokens ⊆ wordsOf tokens' := by
  intro word hword
  obtain ⟨t, ht, rfl⟩ := List.mem_map.mp hword
  obtain ⟨hmem, hisWord⟩ := List.mem_filter.mp ht
  exact mem_wordsOf (h hmem) hisWord

/-- **What a row of tokens does to a run, its nested code included**, by induction on the bound of the nesting: what
goes on with nested code has changed only contexts. -/
theorem Plain.turn_runNested (inv : Invoke) (bound : Nat) {m : Machine} (hm : m.Plain) (tokens : List Token)
    (depth : Nat) :
    Ends (runNested inv bound tokens depth) m (fun next k => m.Turn (wordsOf tokens) next k)
      fun _ k => m.SamePlace k := by
  induction bound generalizing m tokens depth with
  | zero => exact ends_pure (.steady (.refl m))
  | succ bound ih =>
    cases tokens with
    | nil => exact ends_pure (.steady (.refl m))
    | cons first rest =>
      have hcons := runNested_cons inv bound first rest depth m
      have hopen := m.samePlace_openContext depth
      have hm' := hm.openContext depth
      obtain ⟨cs, hcs, -⟩ := m.openContext_eq_withContexts depth
      split_ifs at hcons
      · exact (ends_pure (.steady hopen)).of_apply_eq hcons
      · let s := Statement.ofTokens m.registry.isLabel first rest
        have hkeyword : s.keyword ∈ first :: rest := by
          obtain ⟨leading, htokens, -⟩ := Statement.tokens_eq m.registry.isLabel first rest
          rw [htokens]
          exact List.mem_append_right leading List.mem_cons_self
        have hdispatch := ((hm'.turn_dispatch inv (s := s) depth).and (ends_of_ok fun _ _ => id)).mono
          (fun _ _ => id) fun _ _ h => hopen.trans h.1
        refine (ends_bind hdispatch fun next k hk => ?_).of_apply_eq hcons
        obtain ⟨⟨hword, hturn⟩, hok⟩ := hk
        rw [hcs] at hturn
        have hsub : [s.keyword.text] ⊆ wordsOf (first :: rest) :=
          List.cons_subset.mpr ⟨mem_wordsOf hkeyword hword, List.nil_subset _⟩
        cases next with
        | following => exact ends_pure (hturn.of_withContexts hsub)
        | line n => exact ends_pure (hturn.of_withContexts hsub)
        | nested skip =>
          obtain ⟨-, cs', -, hk⟩ := dispatch_nested hok
          rw [hcs] at hk
          replace hk : k = m.withContexts cs' := hk
          have hplain := hm'.dispatch hok
          have hargs : s.args.drop skip ⊆ first :: rest := fun t ht =>
            Statement.mem_of_mem_args (List.mem_of_mem_drop ht)
          subst hk
          refine (ih hplain _ _).mono (fun _ _ h => Turn.of_withContexts h (wordsOf_subset hargs)) ?_
          exact fun _ _ h => (m.samePlace_withContexts cs').trans h

/-- The words of a line, references in it being looked up. -/
def words (m : Machine) (line : String) : List String :=
  match tokenize m.registry.types (some (resolver m.symbols m.objects)) line with
  | .ok tokens => wordsOf tokens
  | .error _ => []

/-- Which line is running does not matter for the words of a line. -/
theorem words_onLine (m : Machine) (n : Option Nat) (line : String) :
    words { m with executing := n } line = m.words line := by
  unfold words
  rfl

/-- **What a line does to a run.** -/
theorem Plain.turn_runLine {m : Machine} (hm : m.Plain) (inv : Invoke) (line : String) :
    Ends (Machine.runLine inv line) m (fun next k => m.Turn (m.words line) next k) fun _ k => m.SamePlace k := by
  refine ends_get (ends_ofExcept_bind (fun tokens htokens => ?_) fun _ _ => .refl m)
  have hwords : m.words line = wordsOf tokens := by
    unfold words
    rw [htokens]
  rw [hwords]
  refine ends_finally ((hm.turn_runNested inv _ tokens 0).mono (fun _ k hk => ?_) fun _ k hk => ?_)
  · exact hk.trans (k.samePlace_withContexts _)
  · exact hk.trans (k.samePlace_withContexts _)

/-- A line whose keyword opens no code does to a run what this keyword does. -/
theorem Plain.turn_statement {m : Machine} (hm : m.Plain) (inv : Invoke) {line : String} {s : Statement}
    (hs : m.statement? line = some s)
    (hclosed : ∀ b, Builtin.ofName? s.keyword.text = some b → b.opensCode = false) :
    Ends (Machine.runLine inv line) m (fun next k => m.Turn [s.keyword.text] next k) fun _ k => m.SamePlace k := by
  obtain ⟨bound, happly⟩ := hm.runLine_of_statement inv hs
  have hdispatch := ((hm.turn_dispatch inv (s := s) 0).and (ends_of_ok fun _ _ => id)).mono
    (fun _ _ => id) fun _ _ h => h.1
  have hrun : Ends (Machine.dispatch inv s 0 >>= follow inv bound s.args 0) m
      (fun next k => m.Turn [s.keyword.text] next k) fun _ k => m.SamePlace k := by
    refine ends_bind hdispatch fun next k hk => ?_
    obtain ⟨⟨-, hturn⟩, hok⟩ := hk
    cases next with
    | following => exact ends_pure hturn
    | line n => exact ends_pure hturn
    | nested skip =>
      obtain ⟨b, hb, hopens⟩ := hm.dispatch_opens hok
      rw [hclosed b hb] at hopens
      cases hopens
  refine Ends.of_apply_eq (ends_finally (hrun.mono (fun _ k h => ?_) fun _ k h => ?_)) happly
  · exact h.trans (k.samePlace_withContexts _)
  · exact h.trans (k.samePlace_withContexts _)

/-! ## Moves of a run and lines of the host -/

/-- What a move of a run does. -/
inductive Move (m : Machine) : Stretch → Prop
  | counted (left : Nat) : m.mode = .waiting (.ticks left) → Move m ⟨[], [], m.countDown left⟩
  | ended : m.mode = .running → m.script.lines[m.cursor]? = none → Move m ⟨[], [], { m with mode := .finished }⟩
  | passed (line : String) : m.mode = .running → m.script.lines[m.cursor]? = some line →
      Move m ⟨[m.cursor], [], m.pass line⟩
  | ran (line : String) (next : Option Nat) (k : Machine) : m.mode = .running →
      m.script.lines[m.cursor]? = some line → Machine.runLine (invoke m.nesting) line m.onLine = (.ok next, k) →
      m.onLine.Turn (m.words line) next k → Move m ⟨[m.cursor], [], { k with cursor := next.getD (m.cursor + 1) }⟩
  | failed (line : String) (f : Fault) (k : Machine) : m.mode = .running →
      m.script.lines[m.cursor]? = some line → m.onLine.SamePlace k → Move m ⟨[m.cursor], [f], k.fail f⟩

/-- **What a move of a run does.** -/
theorem Plain.move {m : Machine} (hm : m.Plain) {t : Stretch} (h : m.advance = some t) : m.Move t := by
  unfold Machine.advance at h
  split at h
  · rename_i left hmode
    cases h
    exact .counted left hmode
  · rename_i hmode
    split at h
    · rename_i hline
      cases h
      exact .ended hmode hline
    · rename_i line hline
      split_ifs at h with hcounts
      · cases h
        have hturn := hm.onLine.turn_runLine (invoke m.nesting) line
        rw [Machine.onLine, words_onLine] at hturn
        rw [guarded_apply, runCursorLine_apply _ hline, bind_apply]
        rcases hrun : Machine.runLine (invoke m.nesting) line m.onLine with ⟨f | next, k⟩
        · exact .failed line f k hmode hline (hturn.of_error hrun)
        · exact .ran line next k hmode hline hrun (hturn.of_ok hrun)
      · cases h
        exact .passed line hmode hline
  · cases h

/-- Only the line under the cursor is executed by a move, and the machine is then running. -/
theorem Move.lines_eq {m : Machine} {t : Stretch} (h : m.Move t) (hlines : t.lines ≠ []) :
    m.mode = .running ∧ t.lines = [m.cursor] := by
  cases h with
  | counted left hmode => exact absurd rfl hlines
  | ended hmode hline => exact absurd rfl hlines
  | passed line hmode hline => exact ⟨hmode, rfl⟩
  | ran line next k hmode hline hrun hturn => exact ⟨hmode, rfl⟩
  | failed line f k hmode hline hplace => exact ⟨hmode, rfl⟩

/-- The line that a text of the host comes down to. -/
def hostLine (text : String) : String := Text.trim (stripComment text)

/-- **What a line of the host does to a run.** -/
theorem Plain.turn_execute {m : Machine} (hm : m.Plain) (text : String) :
    Ends (Machine.execute text) m
      (fun _ k => k = m ∨ ∃ next l, Turn { m with executing := none } (m.words (hostLine text)) next l ∧
        k = { l with cursor := next.getD l.cursor })
      fun _ k => SamePlace { m with executing := none } k := by
  have hm' : Plain { m with executing := none } := ⟨hm.keywords, hm.coherent, hm.nonempty⟩
  refine Ends.of_apply_eq ?_ (execute_apply text m)
  unfold Machine.executeWith hostLine
  dsimp only
  split
  · have hturn := hm'.turn_runLine (invoke m.nesting) (Text.trim (stripComment text))
    rw [words_onLine m none] at hturn
    refine ends_modify_bind (ends_bind hturn fun next l hl => ?_)
    cases next with
    | none => exact ends_pure (Or.inr ⟨none, l, hl, rfl⟩)
    | some target => exact ends_modify (Or.inr ⟨some target, l, hl, rfl⟩)
  · exact ends_pure (Or.inl rfl)

/-! ## The registry -/

theorem Plain.execute_registry {m : Machine} (hm : m.Plain) (text : String) :
    (Machine.execute text m).2.registry = m.registry := by
  have hkept : Ends (Machine.execute text) m (fun _ k => k.registry = m.registry) fun _ k => k.registry = m.registry := by
    refine (hm.turn_execute text).mono ?_ fun _ k hk => hk.registry
    rintro _ k (rfl | ⟨next, l, hl, rfl⟩)
    · rfl
    · exact hl.registry_eq
  exact hkept.snd (P := fun k => k.registry = m.registry)

/-- **Without extensions the registry stays as it was at first.** -/
theorem Reachable.registry {m : Machine} (h : m.Reachable) : m.registry = .initial := by
  induction h with
  | new s search => rfl
  | @load m text name _ ih => exact (load_registry text name m).trans ih
  | withBudget n _ ih => exact ih
  | @launch m _ ih =>
    have hlaunch : (Machine.launch m).2.registry = m.registry := by
      unfold Machine.launch
      split
      · obtain ⟨events, hfail⟩ := fail_eq _ { m with executing := none }
        rw [hfail]
      · rfl
    exact hlaunch.trans ih
  | move hm hmove ih => exact (advance_registry hm.plain.keywords hmove).trans ih
  | @execute m text hm ih =>
    exact (hm.plain.execute_registry text).trans ih
  | @refuse m _ ih =>
    obtain ⟨events, hfail⟩ := fail_eq .zeroBudget m
    rw [hfail]
    exact ih
  | pause _ ih =>
    unfold Machine.pause
    split <;> exact ih
  | resume _ ih =>
    unfold Machine.resume
    split <;> exact ih
  | stop _ ih => exact ih
  | deliverKey key _ ih =>
    unfold Machine.deliverKey
    dsimp only
    split <;> exact ih
  | provide name value _ ih => exact ih
  | print message _ ih => exact ih
  | clock now _ ih => exact ih

end Machine

end LineScript
