/-
# What runs and extensions cannot tell apart

A run passes over lines, runs statements and counts waits down; a keyword of an extension asks for more of the same, as
it finds the machine.  A `RunCongruence` is kept by what a run does around its statements, and a `RequestCongruence` is
a congruence of statements that is kept by what requests do around them.  A `HostCongruence` is kept by taking
extensions out of their slots as well, and along it the code of keywords sees no difference that it goes by
(`Extension.Respects`).

Main statements: ticks and whole runs do the same along every such relation (`RunCongruence.agree_tickWith`,
`RunCongruence.runFrom`), and so do keywords of extensions, however deep they lead back to the machine
(`HostCongruence.agree_invoke`).  Between its lines a run does not look at the line for reports, so machines may
differ in that as well (`HostCongruence.offLine`, `HostCongruence.agree_line_offLine`).
-/
import LineScript.Proofs.Machine.Calls
import LineScript.Proofs.Registry.Occupation

namespace LineScript

open Act

/-! ## Runs -/

/-- A relation that is kept by what a run does around its statements. -/
structure RunCongruence (S : Machine → Machine → Prop) : Prop where
  mode {m m' : Machine} : S m m' → m'.mode = m.mode
  budget {m m' : Machine} : S m m' → m'.budget = m.budget
  nesting {m m' : Machine} : S m m' → m'.nesting = m.nesting
  wait {m m' : Machine} (left : Nat) : S m m' → S (m.countDown left) (m'.countDown left)
  finish {m m' : Machine} : S m m' → S m.finishIfDone m'.finishIfDone
  settle {m m' : Machine} : S m m' → S m.settle m'.settle

namespace RunCongruence

open Machine

variable {S : Machine → Machine → Prop} (hS : RunCongruence S)
include hS

section Ticks

variable {inv inv' : Invoke} (hline : Agree S (guarded (runCursorLine inv)) (guarded (runCursorLine inv')))
include hline

theorem agree_spend (budget : Nat) : Agree S (spend inv budget) (spend inv' budget) := by
  induction budget with
  | zero => exact agree_pure _
  | succ budget ih =>
    refine agree_get fun m m' h => ?_
    rw [hS.mode h]
    split
    · refine agree_bind (agree_modify fun _ _ h => hS.finish (hS.settle h)) fun _ => agree_get fun k k' hk => ?_
      rw [hS.mode hk]
      split
      · exact agree_bind hline fun _ => ih
      · exact agree_pure _
    · exact agree_pure _

/-- **Ticks do the same.** -/
theorem agree_tickWith : Agree S (tickWith inv) (tickWith inv') := by
  refine agree_get fun m m' h => ?_
  rw [hS.mode h]
  split
  · exact agree_modify fun _ _ h => hS.wait _ h
  · refine agree_get fun k k' hk => ?_
    rw [hS.budget hk]
    exact agree_bind (hS.agree_spend hline _) fun _ => agree_modify fun _ _ h => hS.finish h
  · exact agree_pure _

end Ticks

theorem agree_tick (hline : ∀ bound, Agree S (guarded (runCursorLine (invoke bound)))
      (guarded (runCursorLine (invoke bound)))) : Agree S tick tick := by
  refine agree_get fun m m' h => ?_
  rw [hS.nesting h]
  exact hS.agree_tickWith (hline m.nesting)

/-- **Whole runs do the same**, by induction on the rounds: both come back with the same answer, or neither does. -/
theorem runFrom (hline : ∀ bound, Agree S (guarded (runCursorLine (invoke bound)))
      (guarded (runCursorLine (invoke bound))))
    (limit : Option Nat) (fuel : Nat) {count : Nat} {m m' : Machine} (h : S m m') :
    (Machine.runFrom limit fuel count m = none ∧ Machine.runFrom limit fuel count m' = none) ∨
      ∃ answer k k', Machine.runFrom limit fuel count m = some (answer, k) ∧
        Machine.runFrom limit fuel count m' = some (answer, k') ∧ S k k' := by
  induction fuel generalizing count m m' with
  | zero => exact Or.inl ⟨rfl, rfl⟩
  | succ fuel ih =>
    unfold Machine.runFrom
    rw [hS.mode h]
    split
    · exact ih (hS.wait _ h)
    · have hfinish := hS.finish h
      have hsettle := hS.finish (hS.settle hfinish)
      dsimp only
      rw [hS.mode hfinish, hS.mode hsettle]
      split
      · exact Or.inr ⟨_, _, _, rfl, rfl, hfinish⟩
      · split
        · exact Or.inr ⟨_, _, _, rfl, rfl, hsettle⟩
        · rw [hS.nesting hsettle]
          obtain ⟨hanswer, hlast⟩ := hline m.finishIfDone.settle.finishIfDone.nesting _ _ hsettle
          rcases hrun : guarded (runCursorLine (invoke m.finishIfDone.settle.finishIfDone.nesting))
            m.finishIfDone.settle.finishIfDone with ⟨f | x, k⟩ <;>
          rcases hrun' : guarded (runCursorLine (invoke m.finishIfDone.settle.finishIfDone.nesting))
            m'.finishIfDone.settle.finishIfDone with ⟨f' | x', k'⟩ <;>
          rw [hrun, hrun'] at hanswer hlast
          · obtain rfl : f = f' := Except.error.inj hanswer
            exact Or.inr ⟨_, _, _, rfl, rfl, hlast⟩
          · cases hanswer
          · cases hanswer
          · exact ih hlast
    · exact Or.inr ⟨_, _, _, rfl, rfl, h⟩

end RunCongruence

/-! ## Runs along a congruence of statements -/

namespace Congruence

open Machine

variable {R : Machine → Machine → Prop} (hR : Congruence R)
include hR

theorem pass (line : String) {m m' : Machine} (h : R m m') : R (m.pass line) (m'.pass line) := by
  have hl := hR.looks h
  have hcloses : ∀ name, m'.closes name line = m.closes name line := by
    intro name
    unfold closes
    rw [hl.registry]
  have hpass : m'.pass line = { m' with
      executing := some m.cursor, symbols := (m.pass line).symbols, cursor := m.cursor + 1 } := by
    have hsymbols : (m'.pass line).symbols = (m.pass line).symbols := by
      unfold Machine.pass
      dsimp only
      rw [hl.symbols, hl.cursor]
      split
      · rfl
      · split
        · rename_i name _
          exact congrArg (fun b : Bool => if b then _ else _) (hcloses name)
        · rfl
    rw [← hsymbols, ← hl.cursor]
    rfl
  rw [hpass]
  exact hR.write (.cursor (m.cursor + 1)) (hR.write (.symbols (m.pass line).symbols)
    (hR.write (.executing (some m.cursor)) h))

theorem passOver (bound : Nat) {m m' : Machine} (h : R m m') : R (passOver bound m) (passOver bound m') := by
  induction bound generalizing m m' with
  | zero => exact h
  | succ bound ih =>
    have hl := hR.looks h
    have hcounts : ∀ line, m'.counts line = m.counts line := by
      intro line
      unfold counts
      rw [hl.symbols]
    unfold Machine.passOver
    rw [hl.script, hl.cursor]
    split
    · exact h
    · rw [hcounts]
      split
      · exact h
      · exact ih (hR.pass _ h)

theorem settle {m m' : Machine} (h : R m m') : R m.settle m'.settle := by
  have hl := hR.looks h
  unfold Machine.settle
  rw [hl.script, hl.cursor]
  exact hR.passOver _ h

theorem finishIfDone {m m' : Machine} (h : R m m') : R m.finishIfDone m'.finishIfDone := by
  have hl := hR.looks h
  have hdone : (m'.mode = .running ∧ m'.script.lines.size ≤ m'.cursor) ↔
      (m.mode = .running ∧ m.script.lines.size ≤ m.cursor) := by
    rw [hl.mode, hl.script, hl.cursor]
  unfold Machine.finishIfDone
  by_cases hend : m.mode = .running ∧ m.script.lines.size ≤ m.cursor
  · rw [if_pos hend, if_pos (hdone.mpr hend)]
    exact hR.write (.mode .finished) h
  · rw [if_neg hend, if_neg (mt hdone.mp hend)]
    exact h

theorem agree_guarded {α : Type} {a a' : Act α} (ha : Agree R a a') : Agree R (guarded a) (guarded a') :=
  agree_tryCatch ha fun f => agree_bind (agree_modify fun _ _ h => hR.fail f h) fun _ => agree_throw f

theorem pause {m m' : Machine} (h : R m m') : R m.pause m'.pause := by
  unfold Machine.pause
  rw [(hR.looks h).mode]
  split
  · exact hR.write (.savedWait none) (hR.write (.mode .paused) h)
  · rename_i w _
    exact hR.write (.savedWait (some w)) (hR.write (.mode .paused) h)
  · exact h

theorem provide (name : String) (value : Value) {m m' : Machine} (h : R m m') :
    R (m.provide name value) (m'.provide name value) := by
  unfold Machine.provide
  rw [(hR.looks h).symbols]
  exact hR.write (.symbols (m.symbols.provide name value)) h

theorem agree_executeWith {inv inv' : Invoke} (hline : ∀ line, Agree R (runLine inv line) (runLine inv' line))
    (text : String) : Agree R (executeWith inv text) (executeWith inv' text) := by
  unfold executeWith
  dsimp only
  split
  · refine agree_bind (agree_modify fun _ _ h => hR.write (.executing none) h) fun _ =>
      agree_bind (hline _) fun target => ?_
    cases target with
    | none => exact agree_pure _
    | some n => exact agree_modify fun _ _ h => hR.write (.cursor n) h
  · exact agree_pure _

/-- A congruence along which the budget of a tick is the same is kept by all that a run does around its statements. -/
theorem toRun (hbudget : ∀ {m m' : Machine}, R m m' → m'.budget = m.budget) : RunCongruence R where
  mode h := (hR.looks h).mode
  budget := hbudget
  nesting h := by
    unfold Machine.nesting
    rw [(hR.looks h).registry]
  wait left h := hR.write (.mode (if left ≤ 1 then .running else .waiting (.ticks (left - 1)))) h
  finish := hR.finishIfDone
  settle := hR.settle

end Congruence

namespace StatementCongruence

open Machine

variable {R : Machine → Machine → Prop} (hR : StatementCongruence R)
include hR

theorem stop {m m' : Machine} (h : R m m') : R m.stop m'.stop :=
  hR.write (.mode .idle) (hR.hardReset h)

theorem agree_executeWith {inv inv' : Invoke} (hinv : ∀ {m m' : Machine}, R m m' →
      ∀ {keyword : String} {owned : Owned}, m.registry.keywords.find? keyword = some owned →
        ∀ i, Agree R (inv owned.owner i) (inv' owned.owner i)) (text : String) :
    Agree R (executeWith inv text) (executeWith inv' text) :=
  hR.toCongruence.agree_executeWith (hR.agree_runLine hinv) text

end StatementCongruence

/-! ## The code of keywords -/

/-- Pieces of code that ask for the same and come back with the same, as long as what they see is alike. -/
inductive Conduct.Like {View : Type} (S : View → View → Prop) : Conduct View → Conduct View → Prop
  | answer (result : Except Fault Unit) : Like S (.answer result) (.answer result)
  | ask (r : Request) {next next' : Except Fault Unit → View → Conduct View} :
      (∀ result view view', S view view' → Like S (next result view) (next' result view')) →
      Like S (.ask r next) (.ask r next')

theorem Conduct.like_self {View : Type} (c : Conduct View) : c.Like Eq c := by
  induction c with
  | answer result => exact .answer result
  | ask r next ih =>
    refine .ask r ?_
    rintro result view _ rfl
    exact ih result view

/-- The keywords of the extension do the same with a statement, as long as what they see of the machine is alike. -/
def Extension.Respects (S : Look → Look → Prop) (e : Extension) : Prop :=
  ∀ i look look', S look look' → (e.call i look).Like S (e.call i look')

/-- What sees the same does the same. -/
theorem Extension.respects_eq (e : Extension) : e.Respects Eq := by
  rintro i look _ rfl
  exact (e.call i look).like_self

/-- Keywords that come back at once respect everything, whatever they answer to a statement. -/
theorem Extension.respects_of_answer {e : Extension} (S : Look → Look → Prop) {result : Invocation → Except Fault Unit}
    (h : ∀ i look, e.call i look = .answer (result i)) : e.Respects S := by
  intro i look look' _
  rw [h, h]
  exact .answer (result i)

/-! ## Requests -/

theorem Machine.runConduct_ask {View : Type} (view : Machine → View) (inv : Invoke) (r : Request)
    (next : Except Fault Unit → View → Conduct View) (m : Machine) : runConduct view inv (.ask r next) m =
      runConduct view inv (next (runRequest inv r m).1 (view (runRequest inv r m).2)) (runRequest inv r m).2 := rfl

/-- A demand is carried out, and then the rest, unless it fails. -/
theorem Machine.runConduct_demand {View : Type} (view : Machine → View) (inv : Invoke) (r : Request)
    (rest : Conduct View) : runConduct view inv (.demand r rest) =
      (runRequest inv r >>= fun _ => runConduct view inv rest) := by
  funext m
  rw [bind_apply, Conduct.demand, runConduct_ask]
  rcases runRequest inv r m with ⟨f | x, k⟩ <;> rfl

/-- A congruence of statements that is kept by what requests do around their statements. -/
structure RequestCongruence (R : Machine → Machine → Prop) : Prop extends StatementCongruence R where
  budget {m m' : Machine} : R m m' → m'.budget = m.budget
  lastKey {m m' : Machine} (key : String) : R m m' →
    R { m with lastKey := some key } { m' with lastKey := some key }

/-- Requests keep what statements keep, if the last key is nothing to it. -/
theorem StatementCongruence.toRequests {P : Machine → Prop} (hP : StatementCongruence fun m m' => m' = m ∧ P m)
    (hkey : ∀ {m : Machine} (key : String), P m → P { m with lastKey := some key }) :
    RequestCongruence fun m m' => m' = m ∧ P m where
  toStatementCongruence := hP
  budget h := congrArg Machine.budget h.1
  lastKey := by
    rintro m m' key ⟨rfl, hm⟩
    exact ⟨rfl, hkey key hm⟩

namespace RequestCongruence

open Machine

variable {R : Machine → Machine → Prop} (hR : RequestCongruence R)
include hR

theorem toRun : RunCongruence R := hR.toCongruence.toRun hR.budget

theorem deliverKey (key : String) {m m' : Machine} (h : R m m') : R (m.deliverKey key) (m'.deliverKey key) := by
  have hkey := hR.provide lastKeyName (.string key) (hR.lastKey key h)
  have hends : endsWait key m'.mode = endsWait key m.mode := by
    rw [(hR.looks h).mode]
  unfold Machine.deliverKey
  dsimp only
  rw [hends]
  split
  · exact hR.write (.mode .running) hkey
  · exact hkey

variable {inv inv' : Invoke} (hinv : ∀ {m m' : Machine}, R m m' → ∀ {keyword : String} {owned : Owned},
  m.registry.keywords.find? keyword = some owned → ∀ i, Agree R (inv owned.owner i) (inv' owned.owner i))
include hinv

theorem agree_guarded_line : Agree R (guarded (runCursorLine inv)) (guarded (runCursorLine inv')) :=
  hR.agree_guarded (hR.agree_runCursorLine hinv)

theorem agree_runRequest (r : Request) : Agree R (runRequest inv r) (runRequest inv' r) := by
  cases r with
  | log message => exact agree_modify fun _ _ h => hR.print _ h
  | provide name value => exact agree_modify fun _ _ h => hR.provide name value h
  | execute line => exact hR.agree_executeWith hinv line
  | tick => exact hR.toRun.agree_tickWith (hR.agree_guarded_line hinv)
  | pause => exact agree_modify fun _ _ h => hR.pause h
  | stop => exact agree_modify fun _ _ h => hR.stop h
  | key name => exact agree_modify fun _ _ h => hR.deliverKey name h

/-- **Code that respects what is seen does the same**, by induction on it. -/
theorem agree_runConduct {View : Type} {view : Machine → View} {S : View → View → Prop}
    (hview : ∀ {m m' : Machine}, R m m' → S (view m) (view m')) {c c' : Conduct View} (h : c.Like S c') :
    Agree R (runConduct view inv c) (runConduct view inv' c') := by
  induction h with
  | answer result => exact agree_ofExcept result
  | ask r _ ih =>
    intro m m' hm
    obtain ⟨hresult, hlast⟩ := hR.agree_runRequest hinv r m m' hm
    rw [runConduct_ask, runConduct_ask, hresult]
    exact ih _ _ _ (hview hlast) _ _ hlast

end RequestCongruence

/-! ## Extensions -/

/-- A congruence of requests that is kept by taking extensions out of their slots and by putting them back, and along
which keywords see no difference that they go by. -/
structure HostCongruence (S : Look → Look → Prop) (R : Machine → Machine → Prop) : Prop
    extends RequestCongruence R where
  registry {m m' : Machine} (r : Registry) : R m m' → r.keywords = m.registry.keywords →
    r.extensions = m.registry.extensions → R { m with registry := r } { m' with registry := r }
  look {m m' : Machine} : R m m' → S m.look m'.look
  respected {m m' : Machine} {e : Extension} : R m m' → e ∈ m.registry.extensions → e.Respects S

/-- A congruence of equal machines goes by all that there is to see. -/
theorem RequestCongruence.toHost {P : Machine → Prop} (hR : RequestCongruence fun m m' => m' = m ∧ P m)
    (hregistry : ∀ {m : Machine} (r : Registry), P m → P { m with registry := r }) :
    HostCongruence Eq fun m m' => m' = m ∧ P m where
  toRequestCongruence := hR
  registry := by
    rintro m m' r ⟨rfl, hm⟩ - -
    exact ⟨rfl, hregistry r hm⟩
  look := by
    rintro m m' ⟨rfl, -⟩
    rfl
  respected _ _ := Extension.respects_eq _

namespace Machine

variable {m : Machine} {owner : Nat}

theorem takeExtension_of_ok {e : Extension} {r : Registry} (h : m.registry.take owner = .ok (e, r)) :
    takeExtension owner m = (.ok e, { m with registry := r }) := by
  rw [takeExtension, get_bind_apply, h]
  rfl

theorem takeExtension_of_error {f : Fault} (h : m.registry.take owner = .error f) :
    takeExtension owner m = (.error f, m) := by
  rw [takeExtension, get_bind_apply, h]
  rfl

end Machine

namespace HostCongruence

open Machine

variable {S : Look → Look → Prop} {R : Machine → Machine → Prop} (hR : HostCongruence S R)
include hR

/-- What is done with an extension that comes out of its slot does the same. -/
theorem agree_takeExtension_bind {α : Type} {owner : Nat} {k k' : Extension → Act α}
    (hk : ∀ e : Extension, e.Respects S → Agree R (k e) (k' e)) :
    Agree R (takeExtension owner >>= k) (takeExtension owner >>= k') := by
  intro m m' h
  have hregistry := (hR.looks h).registry
  cases htake : m.registry.take owner with
  | error f =>
    rw [bind_of_error (takeExtension_of_error htake), bind_of_error (takeExtension_of_error (hregistry ▸ htake))]
    exact ⟨rfl, h⟩
  | ok taken =>
    obtain ⟨e, r⟩ := taken
    rw [bind_of_ok (takeExtension_of_ok htake), bind_of_ok (takeExtension_of_ok (hregistry ▸ htake))]
    exact hk e (hR.respected h (Registry.mem_extensions_of_take htake)) _ _
      (hR.registry r h (Registry.take_keywords htake) (Registry.take_extensions htake))

theorem restoreExtension (owner : Nat) {m m' : Machine} (h : R m m') :
    R (m.restoreExtension owner) (m'.restoreExtension owner) := by
  unfold Machine.restoreExtension
  rw [(hR.looks h).registry]
  exact hR.registry _ h rfl (m.registry.restore_extensions owner)

/-- **Keywords of extensions do the same**, by induction on how deep they may nest. -/
theorem agree_invoke (bound owner : Nat) (i : Invocation) :
    Agree R (invoke bound owner i) (invoke bound owner i) := by
  induction bound generalizing owner i with
  | zero =>
    exact hR.agree_takeExtension_bind fun _ _ => agree_modify fun _ _ h => hR.restoreExtension owner h
  | succ bound ih =>
    refine hR.agree_takeExtension_bind fun e he => agree_finally ?_ fun _ _ h => hR.restoreExtension owner h
    refine agree_bind (agree_modify fun _ _ h => hR.write (.emit (.called e.id i)) h) fun _ => ?_
    intro m m' h
    exact hR.agree_runConduct (fun _ _ owned _ i => ih owned.owner i) hR.look (he i _ _ (hR.look h)) m m' h

theorem agree_line (bound : Nat) :
    Agree R (guarded (runCursorLine (invoke bound))) (guarded (runCursorLine (invoke bound))) :=
  hR.agree_guarded_line fun _ _ owned _ i => hR.agree_invoke bound owned.owner i

end HostCongruence

/-! ## Off the lines -/

namespace Machine

/-- The machine without a line for reports. -/
def offLine (m : Machine) : Machine := { m with executing := none }

theorem finishIfDone_offLine (m : Machine) : m.offLine.finishIfDone = m.finishIfDone.offLine := by
  unfold finishIfDone
  by_cases hend : m.mode = .running ∧ m.script.lines.size ≤ m.cursor
  · rw [if_pos hend]
    exact if_pos hend
  · rw [if_neg hend]
    exact if_neg hend

/-- A line that is passed over is the line for reports from then on. -/
theorem passOver_offLine (bound : Nat) (m : Machine) :
    (passOver bound m.offLine).offLine = (passOver bound m).offLine := by
  cases bound with
  | zero => rfl
  | succ bound =>
    have hlines : m.offLine.script.lines[m.offLine.cursor]? = m.script.lines[m.cursor]? := rfl
    unfold passOver
    rw [hlines]
    cases m.script.lines[m.cursor]? with
    | none => rfl
    | some line =>
      have hcounts : m.offLine.counts line = m.counts line := rfl
      have hpass : m.offLine.pass line = m.pass line := rfl
      dsimp only
      rw [hcounts, hpass]
      split <;> rfl

theorem settle_offLine (m : Machine) : m.offLine.settle.offLine = m.settle.offLine :=
  passOver_offLine _ m

theorem deliverKey_offLine (key : String) (m : Machine) :
    m.offLine.deliverKey key = (m.deliverKey key).offLine := by
  unfold deliverKey offLine
  dsimp only
  split <;> rfl

theorem runCursorLine_offLine (inv : Invoke) {m : Machine} {line : String}
    (hline : m.script.lines[m.cursor]? = some line) : runCursorLine inv m.offLine = runCursorLine inv m := by
  rw [runCursorLine_apply inv hline]
  exact runCursorLine_apply inv (m := m.offLine) hline

end Machine

namespace HostCongruence

open Machine

variable {S : Look → Look → Prop} {R : Machine → Machine → Prop} (hR : HostCongruence S R)
include hR

/-- Machines that are related but for the line for reports stay so, since every line sets it. -/
theorem offLine : RunCongruence fun m m' => R m.offLine m'.offLine where
  mode h := (hR.looks h).mode
  budget h := by
    have hbudget := hR.budget h
    exact hbudget
  nesting h := by
    have hnesting := hR.toRun.nesting h
    exact hnesting
  wait left h := hR.toRun.wait left h
  finish {m m'} h := by
    rw [← finishIfDone_offLine m, ← finishIfDone_offLine m']
    exact hR.finishIfDone h
  settle {m m'} h := by
    have hsettle := hR.settle h
    rw [← settle_offLine m, ← settle_offLine m']
    exact hR.write (.executing none) hsettle

/-- From such machines the line under the cursor does the same. -/
theorem agree_line_offLine (bound : Nat) : Agree (fun m m' => R m.offLine m'.offLine)
    (guarded (runCursorLine (invoke bound))) (guarded (runCursorLine (invoke bound))) := by
  intro m m' h
  have hl := hR.looks h
  have hscript : m'.script = m.script := hl.script
  have hcursor : m'.cursor = m.cursor := hl.cursor
  cases hline : m.script.lines[m.cursor]? with
  | none =>
    have hstays : ∀ k : Machine, k.script.lines[k.cursor]? = none →
        guarded (runCursorLine (invoke bound)) k = (.ok (), k) := by
      intro k hk
      rw [guarded_apply, runCursorLine, get_bind_apply, hk]
      rfl
    rw [hstays m hline, hstays m' (by rw [hscript, hcursor, hline])]
    exact ⟨rfl, h⟩
  | some line =>
    have hline' : m'.script.lines[m'.cursor]? = some line := by
      rw [hscript, hcursor, hline]
    obtain ⟨hanswer, hlast⟩ := hR.agree_line bound m.offLine m'.offLine h
    rw [guarded_apply, guarded_apply, runCursorLine_offLine _ hline, runCursorLine_offLine _ hline',
      ← guarded_apply, ← guarded_apply] at hanswer hlast
    exact ⟨hanswer, hR.write (.executing none) hlast⟩

end HostCongruence

end LineScript
