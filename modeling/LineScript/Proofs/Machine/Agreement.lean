/-
# What statements cannot tell apart

`Machine.LooksLike` lists what a statement can look at, `Write` what it can write besides the contexts, and
`ContextChange` how contexts change.  A `Congruence` is a relation between machines that look alike, kept by
all writes; a `StatementCongruence` is kept by the changes of contexts as well.  Main statements: whatever a
statement, a line or a line of the script does, it does along every such relation (`agree_runLine`,
`agree_runCursorLine`), if only the keywords of extensions do.

* `agree_runQuiet`: most keywords leave the contexts alone, so that a congruence is enough for them;
* `congruence_mapBudget`: the budget of a tick is nothing that a statement can look at;
* `StatementCongruence.of_kept`: what all writes and changes of contexts keep, statements keep;
* `congruence_registry`: the registry is nothing that a statement can write.
-/
import LineScript.Proofs.Machine.Step

namespace LineScript

open Act

/-! ## Machines that look alike -/

/-- All that statements can look at is the same in both machines, but for the arguments that have been warned about:
only keywords of extensions look at those. -/
structure Machine.LooksLike (m m' : Machine) : Prop where
  settings : m'.settings = m.settings
  search : m'.search = m.search
  script : m'.script = m.script
  displayName : m'.displayName = m.displayName
  strict : m'.strict = m.strict
  symbols : m'.symbols = m.symbols
  objects : m'.objects = m.objects
  registry : m'.registry = m.registry
  console : m'.console = m.console
  mode : m'.mode = m.mode
  cursor : m'.cursor = m.cursor
  executing : m'.executing = m.executing
  contexts : m'.contexts = m.contexts
  openClass : m'.openClass = m.openClass
  openObject : m'.openObject = m.openObject

/-- A change of the state that a statement can make, besides its contexts. -/
inductive Write
  | symbols (s : Symbols)
  | objects (o : Objects)
  | printed (text : String)
  | cleared
  | mode (w : Mode)
  | savedWait (w : Option Wait)
  | cursor (n : Nat)
  | executing (n : Option Nat)
  | openClass (c : Option String)
  | openObject (o : Option Nat)
  | warnedArguments (w : List (String × String))
  | lastReport (r : Option Report)
  | emit (e : Event)

/-- The machine after a write. -/
def Machine.write (m : Machine) : Write → Machine
  | .symbols s => { m with symbols := s }
  | .objects o => { m with objects := o }
  | .printed text => { m with console := m.console.print text m.executing }
  | .cleared => { m with console := m.console.clear }
  | .mode w => { m with mode := w }
  | .savedWait w => { m with savedWait := w }
  | .cursor n => { m with cursor := n }
  | .executing n => { m with executing := n }
  | .openClass c => { m with openClass := c }
  | .openObject o => { m with openObject := o }
  | .warnedArguments w => { m with warnedArguments := w }
  | .lastReport r => { m with lastReport := r }
  | .emit e => m.emit e

/-- How statements change contexts. -/
inductive ContextChange : List Context → List Context → Prop
  /-- A level is opened. -/
  | opened (cs : List Context) : ContextChange cs (cs ++ [({} : Context)])
  /-- A condition is evaluated. -/
  | decided (cs : List Context) (depth : Nat) (satisfied : Bool) :
      ContextChange cs (cs.modify depth ({ · with satisfied := satisfied }))
  /-- A statement with some keyword is over. -/
  | left (cs : List Context) (depth : Nat) (keyword : String) :
      ContextChange cs
        (cs.modify depth ({ · with canElse := keyword == "if", lastKeyword := some keyword }))
  /-- A line is over. -/
  | closed (cs : List Context) : ContextChange cs (cs.take 1)
  | reset (cs : List Context) : ContextChange cs [({} : Context)]

/-- Does a keyword leave the contexts alone? -/
def Builtin.isQuiet : Builtin → Bool
  | .condition | .continuation | .stop | .restart => false
  | _ => true

/-- The machine with other contexts. -/
def Machine.withContexts (cs : List Context) (m : Machine) : Machine := { m with contexts := cs }

/-- A relation between machines that look alike, kept by all writes. -/
structure Congruence (R : Machine → Machine → Prop) : Prop where
  looks {m m' : Machine} : R m m' → m.LooksLike m'
  write {m m' : Machine} (w : Write) : R m m' → R (m.write w) (m'.write w)

/-- A congruence that is kept by all changes of contexts as well, and along which registered keywords warn about the
same arguments. -/
structure StatementCongruence (R : Machine → Machine → Prop) : Prop extends Congruence R where
  contexts {m m' : Machine} {cs : List Context} : R m m' → ContextChange m.contexts cs →
    R (m.withContexts cs) (m'.withContexts cs)
  warned {m m' : Machine} {keyword : String} {owned : Owned} : R m m' →
    m.registry.keywords.find? keyword = some owned →
    Agree R (Machine.warnUntyped keyword owned.descriptors) (Machine.warnUntyped keyword owned.descriptors)

namespace Congruence

open Machine Text

variable {R : Machine → Machine → Prop} (hR : Congruence R)
include hR

/-! ## Messages and stores -/

theorem print {m m' : Machine} (text : String) (h : R m m') :
    R (m.print text) (m'.print text) := by
  have hl := hR.looks h
  have hshown : m'.console.shown text m'.executing = m.console.shown text m.executing := by
    rw [hl.console, hl.executing]
  unfold Machine.print
  rw [hshown]
  exact hR.write (.emit _) (hR.write (.printed text) h)

theorem agree_warn (c : Caution) : Agree R (warn c) (warn c) := by
  refine agree_get fun m m' h => ?_
  have hl := hR.looks h
  have hline : m'.lineNumber = m.lineNumber := by unfold lineNumber; rw [hl.executing]
  rw [hl.strict]
  split
  · exact agree_throw _
  · intro _ _ _
    rw [hline]
    exact ⟨rfl, hR.write (.emit (.warned ⟨c.message, m.lineNumber⟩)) h⟩

theorem agree_disallow (c : Caution) : Agree R (disallow c) (disallow c) := by
  refine agree_get fun m m' h => ?_
  rw [(hR.looks h).settings]
  split
  · exact agree_throw _
  · exact hR.agree_warn c

theorem agree_onSymbols (f : Symbols → Except Fault Symbols) :
    Agree R (onSymbols f) (onSymbols f) := by
  refine agree_get fun m m' h => ?_
  rw [(hR.looks h).symbols]
  exact agree_bind (agree_ofExcept _) fun s _ _ _ => ⟨rfl, hR.write (.symbols s) h⟩

theorem agree_onSymbolsReply {α : Type} (f : Symbols → Except Fault (α × Symbols)) :
    Agree R (onSymbolsReply f) (onSymbolsReply f) := by
  refine agree_get fun m m' h => ?_
  rw [(hR.looks h).symbols]
  exact agree_bind (agree_ofExcept _) fun r _ _ _ => ⟨rfl, hR.write (.symbols r.2) h⟩

theorem agree_onObjects (f : Objects → Except Fault Objects) :
    Agree R (onObjects f) (onObjects f) := by
  refine agree_get fun m m' h => ?_
  rw [(hR.looks h).objects]
  exact agree_bind (agree_ofExcept _) fun o _ _ _ => ⟨rfl, hR.write (.objects o) h⟩

theorem agree_lookup (name : String) (reach : Reach) :
    Agree R (lookup name reach) (lookup name reach) := by
  refine agree_get fun m m' h => ?_
  rw [(hR.looks h).symbols]
  exact agree_ofExcept _

theorem agree_context (depth : Nat) : Agree R (context depth) (context depth) := by
  refine agree_get fun m m' h => ?_
  rw [(hR.looks h).contexts]
  split
  · exact agree_pure _
  · exact agree_throw _

theorem agree_createObject (className : Option String) :
    Agree R (createObject className) (createObject className) := by
  refine agree_get fun m m' h => ?_
  rw [(hR.looks h).objects]
  exact agree_bind (agree_ofExcept _) fun r _ _ _ => ⟨rfl, hR.write (.objects r.2) h⟩

/-! ## Built-in keywords -/

theorem agree_runDeclare (i : Invocation) : Agree R (runDeclare i) (runDeclare i) :=
  agree_bind (agree_ofExcept _) fun _ =>
    agree_bind (hR.agree_onSymbols _) fun _ => agree_pure _

theorem agree_runAssign (i : Invocation) : Agree R (runAssign i) (runAssign i) := by
  refine agree_bind (agree_ofExcept _) fun name => agree_bind (agree_ofExcept _) fun value => ?_
  dsimp only
  split
  · exact agree_bind (hR.agree_onSymbols _) fun _ => agree_pure _
  · refine agree_bind (hR.agree_lookup _ _) fun target => ?_
    split
    · exact agree_throw_bind _ _ _
    · exact agree_bind (hR.agree_onObjects _) fun _ => agree_pure _

theorem agree_runArithmetic (op : Arithmetic) (i : Invocation) :
    Agree R (runArithmetic op i) (runArithmetic op i) := by
  refine agree_bind (agree_ofExcept _) fun name => ?_
  split
  · refine agree_bind (hR.agree_lookup _ _) fun held => ?_
    split
    · exact agree_bind (agree_ofExcept _) fun _ =>
        agree_bind (hR.agree_onSymbols _) fun _ => agree_pure _
    · exact agree_throw _
  · exact agree_throw _

theorem agree_runJoin (i : Invocation) : Agree R (runJoin i) (runJoin i) := by
  refine agree_bind (agree_ofExcept _) fun name => agree_get fun m m' h => ?_
  rw [(hR.looks h).symbols]
  exact agree_bind (agree_ofExcept _) fun _ =>
    agree_bind (hR.agree_onSymbols _) fun _ => agree_pure _

theorem agree_runLog (i : Invocation) : Agree R (runLog i) (runLog i) :=
  agree_bind (agree_modify fun _ _ h => hR.print _ h) fun _ => agree_pure _

theorem agree_copyName (name : String) (toGlobal : Bool) :
    Agree R (copyName name toGlobal) (copyName name toGlobal) := by
  refine agree_bind (hR.agree_lookup _ _) fun value => agree_get fun m m' h => ?_
  rw [(hR.looks h).symbols]
  dsimp only
  split
  · exact agree_bind (hR.agree_onSymbols _) fun _ => hR.agree_onSymbols _
  · exact hR.agree_onSymbols _

theorem agree_runExport (i : Invocation) : Agree R (runExport i) (runExport i) := by
  refine agree_bind (agree_ofExcept _) fun name => agree_get fun m m' h => ?_
  rw [(hR.looks h).settings]
  dsimp only
  split
  · exact agree_bind (hR.agree_copyName _ _) fun _ => agree_pure _
  · exact agree_bind (hR.agree_disallow _) fun _ => agree_pure _

theorem agree_runImport (i : Invocation) : Agree R (runImport i) (runImport i) := by
  refine agree_bind (agree_ofExcept _) fun name => agree_get fun m m' h => ?_
  rw [(hR.looks h).settings]
  dsimp only
  split
  · exact agree_bind (hR.agree_copyName _ _) fun _ => agree_pure _
  · exact agree_bind (hR.agree_disallow _) fun _ => agree_pure _

theorem agree_runOtherwise (depth : Nat) : Agree R (runOtherwise depth) (runOtherwise depth) := by
  refine agree_bind (hR.agree_context _) fun c => ?_
  dsimp only
  split
  · exact agree_throw_bind _ _ _
  · exact agree_pure _

theorem agree_addProperty (i : Invocation) : Agree R (addProperty i) (addProperty i) := by
  refine agree_bind (agree_ofExcept _) fun _ => agree_get fun m m' h => ?_
  rw [(hR.looks h).openClass]
  split
  · exact agree_bind (agree_ofExcept _) fun _ =>
      agree_bind (agree_ofExcept _) fun _ => hR.agree_onObjects _
  · exact agree_throw _

theorem agree_runClass (i : Invocation) : Agree R (runClass i) (runClass i) :=
  agree_bind (agree_ofExcept _) fun name => agree_bind (hR.agree_onObjects _) fun _ =>
    agree_bind (agree_modify fun _ _ h => hR.write (.openClass (some name)) h) fun _ => agree_pure _

theorem agree_declareObject (name : String) (id : Nat) :
    Agree R (declareObject name id) (declareObject name id) :=
  agree_bind (hR.agree_onSymbols _) fun _ =>
    agree_bind (agree_modify fun _ _ h => hR.write (.openObject (some id)) h) fun _ => agree_pure _

theorem agree_runObject (i : Invocation) : Agree R (runObject i) (runObject i) := by
  refine agree_bind (agree_ofExcept _) fun name => agree_bind (agree_ofExcept _) fun className =>
    agree_get fun m m' h => ?_
  rw [(hR.looks h).symbols]
  dsimp only
  split
  · exact agree_bind (agree_pure _) (hR.agree_declareObject name)
  · exact agree_bind (hR.agree_createObject _) (hR.agree_declareObject name)

theorem agree_runProperty (i : Invocation) (depth : Nat) :
    Agree R (runProperty i depth) (runProperty i depth) := by
  refine agree_bind (hR.agree_context _) fun c => agree_get fun m m' h => ?_
  rw [(hR.looks h).openObject]
  split
  · exact agree_bind (agree_ofExcept _) fun _ => agree_bind (agree_ofExcept _) fun _ =>
      agree_bind (hR.agree_onObjects _) fun _ => agree_pure _
  · exact agree_throw _

theorem agree_readParameter (function text : String) (seen : List Parameter) :
    Agree R (readParameter function text seen) (readParameter function text seen) := by
  unfold readParameter
  rcases cutString ':' text with _ | ⟨name, type⟩
  · dsimp only
    split
    · exact agree_throw_bind _ _ _
    · exact agree_bind (hR.agree_warn _) fun _ => agree_pure _
  · dsimp only
    split
    · exact agree_throw_bind _ _ _
    · split
      · exact agree_bind (hR.agree_warn _) fun _ => agree_pure _
      · exact agree_pure _
      · refine agree_get fun m m' h => ?_
        rw [(hR.looks h).registry]
        exact agree_bind (agree_ofExcept _) fun _ => agree_pure _

theorem agree_readParameters (function : String) (seen : List Parameter) (args : List Token) :
    Agree R (readParameters function seen args) (readParameters function seen args) := by
  induction args generalizing seen with
  | nil => exact agree_pure _
  | cons arg rest ih => exact agree_bind (hR.agree_readParameter _ _ _) fun p => ih _

theorem agree_runFunction (i : Invocation) : Agree R (runFunction i) (runFunction i) := by
  refine agree_bind (agree_ofExcept _) fun name =>
    agree_bind (hR.agree_readParameters _ _ _) fun params => agree_get fun m m' h => ?_
  rw [(hR.looks h).cursor]
  refine agree_bind (hR.agree_onSymbolsReply _) fun reply => ?_
  split <;> exact agree_pure _

theorem agree_runExecute (i : Invocation) : Agree R (runExecute i) (runExecute i) := by
  refine agree_bind (agree_ofExcept _) fun name => agree_get fun m m' h => ?_
  rw [(hR.looks h).cursor]
  exact agree_bind (hR.agree_onSymbolsReply _) fun _ => agree_pure _

theorem agree_runEnd (i : Invocation) : Agree R (runEnd i) (runEnd i) := by
  refine agree_bind (agree_ofExcept _) fun name =>
    agree_bind (hR.agree_onSymbolsReply _) fun reply => ?_
  split <;> exact agree_pure _

theorem agree_runJump (i : Invocation) : Agree R (runJump i) (runJump i) := by
  refine agree_get fun m m' h => ?_
  rw [(hR.looks h).cursor, (hR.looks h).script]
  exact agree_bind (agree_ofExcept _) fun _ => agree_pure _

theorem agree_runIterate (i : Invocation) : Agree R (runIterate i) (runIterate i) := by
  unfold runIterate
  split
  · refine agree_bind (agree_ofExcept _) fun name => agree_get fun m m' h => ?_
    rw [(hR.looks h).cursor]
    refine agree_bind (hR.agree_onSymbolsReply _) fun reply => ?_
    split <;> exact agree_pure _
  · exact agree_throw _

theorem agree_runPause (i : Invocation) : Agree R (runPause i) (runPause i) := by
  refine agree_get fun m m' h => ?_
  rw [(hR.looks h).mode]
  exact agree_bind (agree_ofExcept _) fun w =>
    agree_bind (agree_modify fun _ _ h => hR.write (.mode w) h) fun _ => agree_pure _

theorem agree_runAwaitKey (i : Invocation) : Agree R (runAwaitKey i) (runAwaitKey i) :=
  agree_bind (agree_modify fun _ _ h =>
    hR.write (.mode (.waiting (.key ((i.value? 0).map Value.display)))) h) fun _ => agree_pure _

/-- Built-in keywords that leave the contexts alone do the same on machines that look alike. -/
theorem agree_runQuiet {b : Builtin} (hb : b.isQuiet = true) (i : Invocation) (depth : Nat) :
    Agree R (runBuiltin b i depth) (runBuiltin b i depth) := by
  cases b with
  | declare => exact hR.agree_runDeclare i
  | assign => exact hR.agree_runAssign i
  | arithmetic op => exact hR.agree_runArithmetic op i
  | join => exact hR.agree_runJoin i
  | log => exact hR.agree_runLog i
  | function => exact hR.agree_runFunction i
  | execute => exact hR.agree_runExecute i
  | finish => exact hR.agree_runEnd i
  | otherwise => exact hR.agree_runOtherwise depth
  | jump => exact hR.agree_runJump i
  | iterate => exact hR.agree_runIterate i
  | newClass => exact hR.agree_runClass i
  | newObject => exact hR.agree_runObject i
  | property => exact hR.agree_runProperty i depth
  | pause => exact hR.agree_runPause i
  | awaitKey => exact hR.agree_runAwaitKey i
  | exportName => exact hR.agree_runExport i
  | importName => exact hR.agree_runImport i
  | condition | continuation | stop | restart => cases hb

/-- A fault that ends the run is reported in the same way. -/
theorem fail (f : Fault) {m m' : Machine} (h : R m m') : R (m.fail f) (m'.fail f) := by
  have hl := hR.looks h
  have hreport : m'.report f = m.report f := by
    unfold report lineNumber
    rw [hl.executing, hl.displayName, hl.symbols, hl.registry]
  unfold Machine.fail
  rw [hreport, hl.settings]
  split
  · have hemit := hR.write (.emit (.failed (m.report f))) h
    exact hR.write (.lastReport (some (m.report f))) (hR.write (.mode .failed) hemit)
  · exact hR.write (.lastReport (some (m.report f))) (hR.write (.mode .failed) h)

/-- Machines that have warned about the same arguments warn about the same ones next. -/
theorem agree_warnUntyped (hwarned : ∀ {m m' : Machine}, R m m' → m'.warnedArguments = m.warnedArguments)
    (keyword : String) (descriptors : List Descriptor) :
    Agree R (warnUntyped keyword descriptors) (warnUntyped keyword descriptors) := by
  induction descriptors with
  | nil => exact agree_pure _
  | cons d rest ih =>
    refine agree_get fun m m' h => ?_
    rw [hwarned h]
    dsimp only
    split
    · refine agree_bind (fun _ _ _ => ⟨rfl, ?_⟩) fun _ => agree_bind (hR.agree_warn _) fun _ => ih
      exact hR.write (.warnedArguments (m.warnedArguments ++ [(keyword, d.name)])) h
    · exact ih

theorem toStatements (hwarned : ∀ {m m' : Machine}, R m m' → m'.warnedArguments = m.warnedArguments)
    (hcontexts : ∀ {m m' : Machine} {cs : List Context}, R m m' → ContextChange m.contexts cs →
      R (m.withContexts cs) (m'.withContexts cs)) : StatementCongruence R where
  toCongruence := hR
  contexts := hcontexts
  warned := fun _ _ => hR.agree_warnUntyped hwarned _ _

/-! ## The line under the cursor -/

/-- The line under the cursor does the same along a congruence if every line does. -/
theorem agree_runCursorLine {inv inv' : Invoke} (hline : ∀ line, Agree R (runLine inv line) (runLine inv' line)) :
    Agree R (runCursorLine inv) (runCursorLine inv') := by
  refine agree_get fun m m' h => ?_
  have hl := hR.looks h
  have hsame : m'.script.lines[m'.cursor]? = m.script.lines[m.cursor]? := by
    rw [hl.script, hl.cursor]
  rw [hsame]
  split
  · exact agree_pure _
  · have hexecuting : R (m.write (.executing (some m.cursor)))
        (m'.write (.executing (some m'.cursor))) := by
      rw [hl.cursor]
      exact hR.write _ h
    refine agree_bind (fun _ _ _ => ⟨rfl, hexecuting⟩) fun _ =>
      agree_bind (hline _) fun next => agree_modify fun s s' h => ?_
    show R (s.write (.cursor (next.getD (m.cursor + 1))))
      (s'.write (.cursor (next.getD (m'.cursor + 1))))
    rw [hl.cursor]
    exact hR.write _ h

end Congruence

namespace StatementCongruence

open Machine Text

variable {R : Machine → Machine → Prop} (hR : StatementCongruence R)
include hR

/-! ## Contexts and resets -/

theorem changeContext {depth : Nat} {f : Context → Context} {m m' : Machine} (h : R m m')
    (hf : ContextChange m.contexts (m.contexts.modify depth f)) :
    R (m.changeContext depth f) (m'.changeContext depth f) := by
  unfold Machine.changeContext
  rw [(hR.looks h).contexts]
  exact hR.contexts h hf

theorem openContext (depth : Nat) {m m' : Machine} (h : R m m') :
    R (m.openContext depth) (m'.openContext depth) := by
  unfold Machine.openContext
  rw [(hR.looks h).contexts]
  split
  · exact hR.contexts h (.opened m.contexts)
  · exact h

/-! ## Resets -/

theorem rewind {m m' : Machine} (h : R m m') : R m.rewind m'.rewind := by
  have hcursor := hR.write (.cursor 0) h
  have hwait := hR.write (.savedWait none) hcursor
  have hcontexts := hR.contexts hwait (.reset _)
  have hclass := hR.write (.openClass none) hcontexts
  have hobject := hR.write (.openObject none) hclass
  simpa only [Machine.write, Machine.withContexts, Machine.rewind] using hobject

theorem hardReset {m m' : Machine} (h : R m m') : R m.hardReset m'.hardReset := by
  have hl := hR.looks h
  unfold Machine.hardReset
  rw [hl.symbols]
  exact hR.rewind (hR.write .cleared (hR.write (.objects {}) (hR.write (.symbols m.symbols.clear) h)))

theorem softReset {m m' : Machine} (h : R m m') : R m.softReset m'.softReset := by
  have hl := hR.looks h
  unfold Machine.softReset
  rw [hl.symbols, hl.objects]
  exact hR.rewind (hR.write (.objects m.objects.resetPass)
    (hR.write (.symbols m.symbols.resetPass) h))

/-! ## Keywords that change contexts -/

theorem agree_runCondition (i : Invocation) (depth : Nat) :
    Agree R (runCondition i depth) (runCondition i depth) := by
  refine agree_get fun m m' h => ?_
  rw [(hR.looks h).search]
  exact agree_bind (agree_ofExcept _) fun _ => agree_bind (hR.agree_context _) fun _ =>
    agree_bind (agree_modify fun _ _ h => hR.changeContext h (.decided _ _ _)) fun _ => agree_pure _

theorem agree_runContinuation (i : Invocation) (depth : Nat) :
    Agree R (runContinuation i depth) (runContinuation i depth) := by
  refine agree_bind (hR.agree_context _) fun c => ?_
  split
  · split
    · exact agree_pure _
    · exact agree_bind (agree_ofExcept _) fun _ => hR.agree_runCondition i depth
  · exact agree_pure _
  · exact agree_bind (hR.agree_addProperty i) fun _ => agree_pure _
  · exact agree_throw _

theorem agree_runStop : Agree R runStop runStop :=
  agree_bind (agree_modify fun _ _ h => hR.write (.mode .idle) (hR.hardReset h)) fun _ =>
    agree_pure _

theorem agree_runRestart (i : Invocation) : Agree R (runRestart i) (runRestart i) := by
  refine agree_bind (agree_modify fun m m' h => ?_) fun _ => agree_pure _
  split
  · exact hR.softReset h
  · exact hR.hardReset h

/-- Built-in keywords do the same on machines that look alike. -/
theorem agree_runBuiltin (b : Builtin) (i : Invocation) (depth : Nat) :
    Agree R (runBuiltin b i depth) (runBuiltin b i depth) := by
  cases hb : b.isQuiet with
  | true => exact hR.agree_runQuiet hb i depth
  | false =>
    cases b with
    | condition => exact hR.agree_runCondition i depth
    | continuation => exact hR.agree_runContinuation i depth
    | stop => exact hR.agree_runStop
    | restart => exact hR.agree_runRestart i
    | _ => cases hb

/-! ## Statements and lines -/

-- Only keywords that are registered can run, so only their behaviour has to agree.
variable {inv inv' : Invoke} (hinv : ∀ {m m' : Machine}, R m m' → ∀ {keyword : String} {owned : Owned},
  m.registry.keywords.find? keyword = some owned → ∀ i, Agree R (inv owned.owner i) (inv' owned.owner i))
include hinv

theorem agree_runKeyword (i : Invocation) (depth : Nat) :
    Agree R (runKeyword inv i depth) (runKeyword inv' i depth) := by
  unfold runKeyword
  split
  · exact agree_bind (hR.agree_warn _) fun _ => agree_pure _
  · refine agree_get fun m m' h => ?_
    rw [(hR.looks h).registry]
    split
    · rename_i owned hfound
      exact agree_bind (hR.warned h hfound) fun _ => agree_bind (agree_ofExcept _) fun _ =>
        agree_bind (hinv h hfound _) fun _ => agree_pure _
    · split
      · exact agree_bind (agree_ofExcept _) fun _ => hR.agree_runBuiltin _ _ _
      · exact agree_throw _

omit hinv in
theorem leaveContext (keyword : String) (depth : Nat) {m m' : Machine} (h : R m m') :
    R (m.leaveContext keyword depth) (m'.leaveContext keyword depth) := by
  unfold Machine.leaveContext
  split
  · exact h
  · exact hR.changeContext h (.left _ _ _)

theorem agree_dispatch (s : Statement) (depth : Nat) :
    Agree R (dispatch inv s depth) (dispatch inv' s depth) := by
  unfold dispatch
  dsimp only
  split
  · exact agree_throw_bind _ _ _
  · refine agree_get fun m m' h => ?_
    rw [(hR.looks h).registry]
    refine agree_bind (agree_ofExcept _) fun _ => agree_get fun m₁ m₁' h₁ => ?_
    rw [(hR.looks h₁).cursor]
    exact agree_bind (hR.agree_runKeyword hinv _ _) fun _ =>
      agree_bind (agree_modify fun _ _ h => hR.leaveContext _ _ h) fun _ => agree_pure _

/-- Statements with the code nested in them, by induction on the bound of the nesting. -/
theorem agree_runNested (bound : Nat) (tokens : List Token) (depth : Nat) :
    Agree R (runNested inv bound tokens depth) (runNested inv' bound tokens depth) := by
  induction bound generalizing tokens depth with
  | zero => exact agree_pure _
  | succ bound ih =>
    cases tokens with
    | nil => exact agree_pure _
    | cons first rest =>
      refine agree_bind (agree_modify fun _ _ h => hR.openContext depth h) fun _ =>
        agree_get fun m m' h => ?_
      have hignored : m'.isIgnored first = m.isIgnored first := by
        unfold isIgnored
        rw [(hR.looks h).script]
      rw [hignored]
      dsimp only
      split
      · exact agree_pure _
      · refine agree_get fun m₁ m₁' h₁ => ?_
        rw [(hR.looks h₁).registry]
        refine agree_bind (hR.agree_dispatch hinv _ _) fun next => ?_
        cases next with
        | following => exact agree_pure _
        | line n => exact agree_pure _
        | nested skip => exact ih _ _

theorem agree_runStatement (tokens : List Token) :
    Agree R (runStatement inv tokens) (runStatement inv' tokens) := by
  refine agree_finally (hR.agree_runNested hinv _ _ _) fun m m' h => ?_
  rw [(hR.looks h).contexts]
  exact hR.contexts h (.closed m.contexts)

theorem agree_runLine (line : String) : Agree R (runLine inv line) (runLine inv' line) := by
  refine agree_get fun m m' h => ?_
  have hl := hR.looks h
  rw [hl.registry, hl.symbols, hl.objects]
  exact agree_bind (agree_ofExcept _) fun _ => hR.agree_runStatement hinv _

/-- The line under the cursor does the same on machines that look alike. -/
theorem agree_runCursorLine : Agree R (runCursorLine inv) (runCursorLine inv') :=
  hR.toCongruence.agree_runCursorLine (hR.agree_runLine hinv)

end StatementCongruence

/-! ## The budget -/

/-- The same machine with its budget of statements for each tick changed. -/
def Machine.mapBudget (g : Nat → Nat) (m : Machine) : Machine := { m with budget := g m.budget }

/-- No statement looks at the budget of a tick or changes it. -/
theorem congruence_mapBudget (g : Nat → Nat) : StatementCongruence fun m m' => m' = m.mapBudget g := by
  refine Congruence.toStatements ⟨?_, ?_⟩ ?_ ?_
  · rintro m m' rfl
    constructor <;> rfl
  · rintro m m' w rfl
    cases w <;> rfl
  · rintro m m' rfl
    rfl
  · rintro m m' cs rfl -
    rfl

/-! ## What is kept -/

section Kept

variable {P : Machine → Prop} (hwrite : ∀ {m : Machine} (w : Write), P m → P (m.write w))
include hwrite

/-- What all writes keep goes along with equality. -/
theorem Congruence.of_kept : Congruence fun m m' => m' = m ∧ P m where
  looks := by
    rintro m m' ⟨rfl, -⟩
    constructor <;> rfl
  write := by
    rintro m m' w ⟨rfl, hm⟩
    exact ⟨rfl, hwrite w hm⟩

/-- **Statements keep what all writes and all changes of contexts keep.** -/
theorem StatementCongruence.of_kept (hcontexts : ∀ {m : Machine} {cs : List Context}, P m →
    ContextChange m.contexts cs → P (m.withContexts cs)) : StatementCongruence fun m m' => m' = m ∧ P m := by
  refine (Congruence.of_kept hwrite).toStatements (fun h => congrArg Machine.warnedArguments h.1) ?_
  rintro m m' cs ⟨rfl, hm⟩ hchange
  exact ⟨rfl, hcontexts hm hchange⟩

end Kept

/-- No statement changes the registry. -/
theorem congruence_registry (r : Registry) : StatementCongruence fun m m' => m' = m ∧ m.registry = r := by
  refine .of_kept (fun w hr => ?_) fun hr _ => hr
  cases w <;> exact hr

end LineScript
