/-
# Chains of conditions

A chain is an `if`, any number of conditions that continue it with `|`, and then perhaps an `else` and more lines that
continue this one with `|`.  Lines without statement may stand between.  Which of these lines runs its code is rebuilt
line by line from the outermost context: what it remembers of the statement before, and whether a condition has held.

The proofs follow the grammar of chains (`IsChain`).  One lemma for each kind of line says what it does in the context
that the lines before have left, and which context it leaves itself; nested code cannot change this context
(`Plain.runNested_head?`).

Main statement: exactly one alternative runs (`one_alternative_runs`).
-/
import LineScript.Proofs.Machine.Rows
import LineScript.Proofs.Script.Words
import Mathlib.Data.List.Chain

namespace LineScript

open Act

/-! ## Lines of chains -/

/-- What a line of a chain is: a line without statement, a condition with its code, or code for when no condition has
held. -/
inductive Link
  | passive | condition | alternative
  deriving DecidableEq, Repr

/-- A line begins with this word, and has more behind it. -/
def opensWith (line word : String) : Bool :=
  match (scan line).lexemes with
  | .bare written :: _ :: _ => written == word.toList
  | _ => false

/-- A line of a chain, and the machine that is about to execute it. -/
structure Visit where
  link : Link
  line : String
  machine : Machine

/-- What may stand behind `else`: more of its code. -/
inductive ElsePart : List Visit → Prop
  | nil : ElsePart []
  | passive {v : Visit} {rest : List Visit} :
      v.link = .passive → isPassive v.line = true → ElsePart rest → ElsePart (v :: rest)
  | more {v : Visit} {rest : List Visit} :
      v.link = .alternative → opensWith v.line "|" = true → ElsePart rest → ElsePart (v :: rest)

/-- What may stand behind `if`: more conditions, and then `else`. -/
inductive IfPart : List Visit → Prop
  | nil : IfPart []
  | passive {v : Visit} {rest : List Visit} :
      v.link = .passive → isPassive v.line = true → IfPart rest → IfPart (v :: rest)
  | condition {v : Visit} {rest : List Visit} :
      v.link = .condition → opensWith v.line "|" = true → IfPart rest → IfPart (v :: rest)
  | otherwise {v : Visit} {rest : List Visit} :
      v.link = .alternative → opensWith v.line "else" = true → ElsePart rest → IfPart (v :: rest)

/-- A chain of conditions. -/
inductive IsChain : List Visit → Prop
  | opens {v : Visit} {rest : List Visit} :
      v.link = .condition → opensWith v.line "if" = true → IfPart rest → IsChain (v :: rest)

/-- The words that chains are made with. -/
def chainWords : List String := ["if", "else", "|"]

/-- Without extensions they are plain words, and no labels. -/
theorem chainWords_plain {word : String} (h : word ∈ chainWords) :
    Token.isWord ⟨wordValue Registry.initial.types word, word⟩ = true ∧ Registry.initial.isLabel word = false := by
  have hall : ∀ word ∈ chainWords, Token.isWord ⟨wordValue Registry.initial.types word, word⟩ = true ∧
      Registry.initial.isLabel word = false := by
    decide
  exact hall word h

/-- The tokens of a line that begins with a word and has more behind it. -/
theorem tokens_of_opensWith {types : List WordType} {resolve : Option Resolver} {line word : String}
    {tokens : List Token} (hopens : opensWith line word = true) (h : tokenize types resolve line = .ok tokens) :
    ∃ second rest, tokens = ⟨wordValue types word, word⟩ :: second :: rest := by
  obtain ⟨lexemes, hscan, hfound⟩ := exists_lexemes_of_tokenize h
  unfold opensWith at hopens
  rw [hscan] at hopens
  split at hopens
  · rename_i written l more hlexemes
    cases hlexemes
    obtain rfl : written = word.toList := beq_iff_eq.mp hopens
    obtain ⟨first, behind, rfl, hfirst, hbehind⟩ := mapM_cons_eq_ok hfound
    obtain ⟨second, rest, rfl, -, -⟩ := mapM_cons_eq_ok hbehind
    cases hfirst
    exact ⟨second, rest, by rw [String.ofList_toList]⟩
  · cases hopens

/-- A line that begins with a word is a statement. -/
theorem not_passive_of_opensWith {line word : String} (h : opensWith line word = true) : isPassive line = false := by
  have hfirst : firstWord? line = some word := by
    unfold opensWith at h
    split at h
    · rename_i written second rest hscan
      rw [firstWord?, hscan, beq_iff_eq.mp h]
      exact congrArg some String.ofList_toList
    · cases h
  exact not_passive_of_firstWord hfirst

namespace Visit

variable (v : Visit)

/-! ## What a line asks for, and what it does -/

/-- The condition of the line can be evaluated. -/
def wellFormed : Bool :=
  v.machine.cursorStatement?.any fun s =>
    (validate s.keyword.text conditionDescriptors s.args).isOk && (Machine.holds v.machine.search (v.machine.invocation s)).isOk

/-- The condition of the line holds. -/
def holds : Bool :=
  v.machine.cursorStatement?.any fun s => (Machine.holds v.machine.search (v.machine.invocation s)).toOption.getD false

/-- The code of the line: behind a condition its fourth argument and the ones after it, else all arguments. -/
def code : List Token :=
  let args := (v.machine.cursorStatement?.map (·.args)).getD []
  match v.link with
  | .condition => args.drop 3
  | _ => args

/-- The machine as the code of the line finds it: the context says that the chain has got its alternative, or that the
lines of `else` are running. -/
def entered : Machine :=
  v.machine.onLine.changeContext 0 fun _ =>
    match v.link with
    | .condition => ⟨some "if", true, true⟩
    | _ => ⟨some "else", false, false⟩

/-- Run the code of the line, once. -/
def runCode : Except Fault (Option Nat) × Machine :=
  Machine.runNested (Machine.invoke v.machine.nesting) v.code.length v.code 1 v.entered

/-- The rows that the code of the line comes to. -/
def codeRows : List Row :=
  Machine.rows (Machine.invoke v.machine.nesting) v.code.length v.code 1 v.entered

/-- The code of the line runs without fault and transfers no control. -/
def CodeSucceeds : Prop := v.runCode.1.isOk = true ∧ ∀ r ∈ v.codeRows, r.statement.Stays

instance : Decidable v.CodeSucceeds := inferInstanceAs (Decidable (_ ∧ _))

/-- The line runs its code, once, and goes on with the next line. -/
def RunsItsCode : Prop :=
  ∃ k, v.runCode = (.ok none, k) ∧
    v.machine.advance =
      some ⟨[v.machine.cursor], [], { k.closeLine with cursor := v.machine.cursor + 1 }⟩

/-- The line is passed over: but for the contexts only the cursor moves. -/
def DoesNothing : Prop :=
  ∃ cs, v.machine.advance = some ⟨[v.machine.cursor], [], { v.machine with
    executing := some v.machine.cursor, contexts := cs, cursor := v.machine.cursor + 1 }⟩

/-- A running machine without extensions and without ignored words is at this line, which can be cut if it is a
statement. -/
structure Ready : Prop where
  reachable : v.machine.Reachable
  running : v.machine.mode = .running
  line : v.machine.script.lines[v.machine.cursor]? = some v.line
  unignored : v.machine.script.notes.ignored = []
  tokenizes : v.link ≠ .passive → (tokenize v.machine.registry.types
    (some (resolver v.machine.symbols v.machine.objects)) v.line).isOk = true

end Visit

/-- What the host may do between two lines: whatever leaves the run at its place. -/
structure Machine.Idles (m k : Machine) : Prop where
  script : k.script = m.script
  cursor : k.cursor = m.cursor
  contexts : k.contexts = m.contexts
  declaring : k.symbols.declaring = m.symbols.declaring

/-- The next line is executed where this one has led. -/
def Visit.Follows (v w : Visit) : Prop := ∀ t, v.machine.advance = some t → t.last.Idles w.machine

/-- As far as conditions are evaluated they are well-formed, and the code that is chosen by them succeeds. -/
def Orderly : List Visit → Prop
  | [] => True
  | v :: rest =>
    match v.link with
    | .passive => Orderly rest
    | .condition => v.wellFormed = true ∧ if v.holds then v.CodeSucceeds else Orderly rest
    | .alternative => v.CodeSucceeds ∧ Orderly rest

instance decidableOrderly : (visits : List Visit) → Decidable (Orderly visits)
  | [] => isTrue trivial
  | v :: rest =>
    have := decidableOrderly rest
    match hlink : v.link with
    | .passive => decidable_of_iff (Orderly rest) (by rw [Orderly, hlink])
    | .condition =>
      decidable_of_iff (v.wellFormed = true ∧ if v.holds then v.CodeSucceeds else Orderly rest) (by rw [Orderly, hlink])
    | .alternative => decidable_of_iff (v.CodeSucceeds ∧ Orderly rest) (by rw [Orderly, hlink])

/-- A chain that is executed from its first line on. -/
structure ChainRun (visits : List Visit) : Prop where
  chain : IsChain visits
  ready : ∀ v ∈ visits, v.Ready
  /-- The first line is not part of a function that is being declared. -/
  outside : ∀ v ∈ visits.head?, v.machine.symbols.declaring = none
  follows : visits.IsChain Visit.Follows
  orderly : Orderly visits

namespace Machine

/-! ## The host between two lines -/

theorem idles_pause (m : Machine) : m.Idles m.pause := by
  unfold pause
  split <;> constructor <;> rfl

theorem idles_resume (m : Machine) : m.Idles m.resume := by
  unfold resume
  split <;> constructor <;> rfl

theorem idles_countDown (m : Machine) (left : Nat) : m.Idles (m.countDown left) := by
  constructor <;> rfl

theorem idles_print (m : Machine) (message : String) : m.Idles (m.print message) := by
  constructor <;> rfl

theorem idles_provide (m : Machine) (name : String) (value : Value) : m.Idles (m.provide name value) := by
  constructor <;> rfl

theorem idles_deliverKey (m : Machine) (key : String) : m.Idles (m.deliverKey key) := by
  unfold deliverKey
  dsimp only
  split <;> constructor <;> rfl

/-! ## The context of a chain -/

/-- The machine with another outermost context. -/
def withLevel (c : Context) (m : Machine) : Machine := m.changeContext 0 fun _ => c

variable {m : Machine}

theorem changeContext_zero (hm : m.contexts ≠ []) (f : Context → Context) :
    m.changeContext 0 f = m.withLevel (f m.level) := by
  cases h : m.contexts with
  | nil => exact absurd h hm
  | cons c cs => simp [withLevel, changeContext, level, h]

theorem withLevel_self (hm : m.contexts ≠ []) : m.withLevel m.level = m := by
  have hsame : m.contexts.modify 0 (fun _ => m.level) = m.contexts := by
    cases h : m.contexts with
    | nil => exact absurd h hm
    | cons c cs => simp [level, h]
  show { m with contexts := m.contexts.modify 0 fun _ => m.level } = m
  rw [hsame]

theorem withLevel_withLevel (c c' : Context) : (m.withLevel c).withLevel c' = m.withLevel c' := by
  simp [withLevel, changeContext, List.modify_modify_eq, Function.comp_def]

theorem withLevel_nonempty (hm : m.contexts ≠ []) (c : Context) : (m.withLevel c).contexts ≠ [] := by
  simpa [withLevel, changeContext] using hm

theorem withLevel_level (hm : m.contexts ≠ []) (c : Context) : (m.withLevel c).level = c :=
  level_modify_zero hm _

theorem Plain.withLevel (hm : m.Plain) {c : Context} (hc : c.Coherent) : (m.withLevel c).Plain :=
  ⟨hm.keywords, coherent_modify hm.coherent 0 fun _ _ => hc, withLevel_nonempty hm.nonempty c⟩

/-- A keyword that does not belong to the statement before is remembered. -/
theorem leaveContext_zero {keyword : String} (hm : m.contexts ≠ []) (h : transparent.contains keyword = false) :
    m.leaveContext keyword 0 =
      m.withLevel { m.level with canElse := keyword == "if", lastKeyword := some keyword } := by
  rw [leaveContext, h, if_neg Bool.false_ne_true, changeContext_zero hm]

/-! ## Statements of chains -/

/-- A condition that can be evaluated leaves its truth in the outermost context. -/
theorem runCondition_of_holds (hm : m.contexts[0]? = some m.level) {i : Invocation} {satisfied : Bool}
    (hholds : holds m.search i = .ok satisfied) :
    runCondition i 0 m = (.ok (if satisfied then .nested 3 else .following),
      m.changeContext 0 ({ · with satisfied := satisfied })) := by
  unfold runCondition
  rw [get_bind_apply, hholds, bind_of_ok (ofExcept_apply _ m), bind_of_ok (context_of_some hm)]
  rfl

end Machine

/-- A statement without labels that begins with this word and has arguments. -/
structure Statement.Opens (s : Statement) (word : String) : Prop where
  isWord : s.keyword.isWord = true
  text : s.keyword.text = word
  labels : s.labels = []
  args : s.args ≠ []

namespace Machine

variable {m : Machine} {s : Statement}

/-- Where a condition is evaluated: an `if` anywhere, and what continues an `if` as long as no condition has held. -/
def Tries (m : Machine) (word : String) : Prop :=
  word = "if" ∨ word = "|" ∧ m.level = ⟨some "if", false, true⟩

/-- Where an alternative belongs, `held` saying if a condition has held: directly behind the conditions, or behind
another alternative. -/
def Takes (m : Machine) (word : String) (held : Bool) : Prop :=
  word = "else" ∧ m.level = ⟨some "if", held, true⟩ ∨ word = "|" ∧ m.level = ⟨some "else", held, false⟩

/-- **A condition that is evaluated** goes on with its code if it holds, and leaves its truth to the chain. -/
theorem Plain.dispatch_condition (hm : m.Plain) (inv : Invoke) {word : String} (hs : s.Opens word)
    (hword : m.Tries word) (hvalid : validate word conditionDescriptors s.args = .ok ()) {satisfied : Bool}
    (hholds : holds m.search (m.invocation s) = .ok satisfied) :
    Machine.dispatch inv s 0 m =
      (.ok (if satisfied then .nested 3 else .following), m.withLevel ⟨some "if", satisfied, true⟩) := by
  have hcontext := hm.getElem?_zero
  have hrun := runCondition_of_holds hcontext hholds
  rw [changeContext_zero hm.nonempty] at hrun
  have hlabels : checkLabels m.registry s.keyword.text s.labels = .ok () := by
    rw [hs.labels]
    rfl
  rw [dispatch_apply inv 0 hs.isWord hlabels]
  rcases hword with rfl | ⟨rfl, hlevel⟩
  · have hkeyword : Machine.runKeyword inv (m.invocation s) 0 m = runCondition (m.invocation s) 0 m := by
      rw [hm.runKeyword_builtin (i := m.invocation s) (b := .condition) inv 0 (by rw [invocation, hs.text]; rfl)
        (by rw [invocation, hs.text]; rfl)]
      have hchecked : validate s.keyword.text conditionDescriptors s.args = .ok () := by
        rw [hs.text]
        exact hvalid
      exact bind_of_ok (congrArg (·, m) hchecked)
    rw [bind_of_ok (hkeyword.trans hrun), modify_bind_apply, pure_apply, hs.text,
      leaveContext_zero (withLevel_nonempty hm.nonempty _) rfl, withLevel_withLevel, withLevel_level hm.nonempty]
    rfl
  · have hkeyword : Machine.runKeyword inv (m.invocation s) 0 m = runCondition (m.invocation s) 0 m := by
      rw [hm.runKeyword_alternative inv ⟨hs.isWord, Or.inr hs.text, hs.labels, hs.args⟩,
        if_neg (by rw [hs.text]; decide), runContinuation_apply hcontext, hlevel, if_pos rfl,
        if_neg Bool.false_ne_true]
      exact bind_of_ok (congrArg (·, m) hvalid)
    rw [bind_of_ok (hkeyword.trans hrun), modify_bind_apply, pure_apply, hs.text, leaveContext_of_transparent _ rfl,
      hlevel]

/-- **An alternative** goes on with its code if no condition has held. -/
theorem Plain.dispatch_alternative (hm : m.Plain) (inv : Invoke) {word : String} (hs : s.Opens word) {held : Bool}
    (hword : m.Takes word held) :
    Machine.dispatch inv s 0 m =
      (.ok (if held then .following else .nested 0), m.withLevel ⟨some "else", held, false⟩) := by
  have hcontext := hm.getElem?_zero
  have hlabels : checkLabels m.registry s.keyword.text s.labels = .ok () := by
    rw [hs.labels]
    rfl
  rw [dispatch_apply inv 0 hs.isWord hlabels]
  rcases hword with ⟨rfl, hlevel⟩ | ⟨rfl, hlevel⟩
  · have hkeyword : Machine.runKeyword inv (m.invocation s) 0 m =
        (.ok (if held then .following else .nested 0), m) := by
      rw [hm.runKeyword_alternative inv ⟨hs.isWord, Or.inl hs.text, hs.labels, hs.args⟩, if_pos hs.text,
        runOtherwise_apply hcontext, hlevel, if_pos rfl]
    rw [bind_of_ok hkeyword, modify_bind_apply, pure_apply, hs.text, leaveContext_zero hm.nonempty rfl, hlevel]
    rfl
  · have hkeyword : Machine.runKeyword inv (m.invocation s) 0 m =
        (.ok (if held then .following else .nested 0), m) := by
      rw [hm.runKeyword_alternative inv ⟨hs.isWord, Or.inr hs.text, hs.labels, hs.args⟩,
        if_neg (by rw [hs.text]; decide), runContinuation_apply hcontext, hlevel, if_neg (by simp), if_pos rfl]
      cases held <;> rfl
    have hsame : m.withLevel ⟨some "else", held, false⟩ = m := by
      rw [← hlevel]
      exact withLevel_self hm.nonempty
    rw [bind_of_ok hkeyword, modify_bind_apply, pure_apply, hs.text, leaveContext_of_transparent _ rfl, hsame]

/-- What continues an `if` behind a condition that has held is not even checked. -/
theorem Plain.dispatch_skipped (hm : m.Plain) (inv : Invoke) (hs : s.Opens "|")
    (hlevel : m.level = ⟨some "if", true, true⟩) : Machine.dispatch inv s 0 m = (.ok .following, m) := by
  rw [hm.dispatch_alternative_skipped inv ⟨hs.isWord, Or.inr hs.text, hs.labels, hs.args⟩ hlevel, hs.text,
    leaveContext_of_transparent _ rfl]

/-! ## Lines of chains -/

/-- A line whose statement and code succeed and transfer no control is executed by one move. -/
theorem Plain.advance_of_dispatch (hm : m.Plain) {line : String} (hmode : m.mode = .running)
    (hline : m.script.lines[m.cursor]? = some line) (hcounts : m.counts line = true)
    (hs : m.onLine.statement? line = some s) {step : Next} {k l : Machine}
    (hdispatch : Machine.dispatch (invoke m.nesting) s 0 m.onLine = (.ok step, k))
    (hfollow : ∀ bound, s.args.length ≤ bound → follow (invoke m.nesting) bound s.args 0 step k = (.ok none, l)) :
    m.advance = some ⟨[m.cursor], [], { l.closeLine with cursor := m.cursor + 1 }⟩ := by
  obtain ⟨bound, hbound, hrun⟩ := hm.onLine.runLine_of_statement_bounded (invoke m.nesting) hs
  have hends : Machine.runLine (invoke m.nesting) line m.onLine = (.ok none, l.closeLine) := by
    rw [hrun, finally_apply, bind_of_ok hdispatch, hfollow bound hbound]
  exact advance_of_runLine hmode hline hcounts hends

end Machine

namespace Visit

variable {v w : Visit} {c : Context}

/-- The machine has this outermost context, and no function is being declared. -/
structure At (v : Visit) (c : Context) : Prop where
  level : v.machine.level = c
  outside : v.machine.symbols.declaring = none

/-- The line leaves this outermost context, and no function is being declared. -/
def Leaves (v : Visit) (c : Context) : Prop :=
  ∃ t, v.machine.advance = some t ∧ t.last.level = c ∧ t.last.symbols.declaring = none

theorem Follows.at (h : v.Follows w) (hv : v.Leaves c) : w.At c := by
  obtain ⟨t, ht, hlevel, houtside⟩ := hv
  have hidles := h t ht
  refine ⟨?_, hidles.declaring.trans houtside⟩
  rw [← hlevel, Machine.level, Machine.level, hidles.contexts]

/-- The statement of a line that begins with a word of chains. -/
theorem Ready.statement (hv : v.Ready) (hlink : v.link ≠ .passive) {word : String} (hword : word ∈ chainWords)
    (hopens : opensWith v.line word = true) : ∃ s, v.machine.cursorStatement? = some s ∧ s.Opens word := by
  have htokenizes := hv.tokenizes hlink
  cases htokens : tokenize v.machine.registry.types (some (resolver v.machine.symbols v.machine.objects)) v.line with
  | error f =>
    rw [htokens] at htokenizes
    cases htokenizes
  | ok tokens =>
    obtain ⟨second, rest, rfl⟩ := tokens_of_opensWith hopens htokens
    have hregistry := hv.reachable.registry
    have hignored : v.machine.isIgnored ⟨wordValue v.machine.registry.types word, word⟩ = false := by
      simp [Machine.isIgnored, hv.unignored]
    obtain ⟨hisWord, hlabel⟩ := chainWords_plain hword
    refine ⟨⟨[], ⟨wordValue v.machine.registry.types word, word⟩, second :: rest⟩, ?_, ?_, rfl, rfl, List.cons_ne_nil _ _⟩
    · rw [Machine.cursorStatement?, hv.line, Option.bind_some, Machine.statement?, htokens]
      dsimp only
      rw [hignored, if_neg Bool.false_ne_true, Statement.ofTokens, hregistry, hlabel, Bool.and_false,
        if_neg Bool.false_ne_true]
    · rw [hregistry]
      exact hisWord

/-- A line without statement does nothing and leaves the context as it is. -/
theorem Ready.passive (hv : v.Ready) (hpassive : isPassive v.line = true) (hat : v.At c) :
    v.DoesNothing ∧ v.Leaves c := by
  have hadvance := Machine.advance_pass hv.running hv.line (by simp [Machine.counts, hpassive])
  have hpass : v.machine.pass v.line =
      { v.machine with executing := some v.machine.cursor, cursor := v.machine.cursor + 1 } := by
    simp [Machine.pass, hpassive]
  rw [hpass] at hadvance
  exact ⟨⟨v.machine.contexts, hadvance⟩, _, hadvance, hat.level, hat.outside⟩

/-- A line whose statement goes on with the next line does nothing. -/
theorem Ready.passes (hv : v.Ready) {c' : Context} (hat : v.At c') (hactive : isPassive v.line = false) {s : Statement}
    (hs : v.machine.cursorStatement? = some s)
    (hdispatch : Machine.dispatch (Machine.invoke v.machine.nesting) s 0 v.machine.onLine =
      (.ok .following, v.machine.onLine.withLevel c)) : v.DoesNothing ∧ v.Leaves c := by
  have hm := hv.reachable.plain
  rw [Machine.cursorStatement?, hv.line] at hs
  have hadvance := hm.advance_of_dispatch hv.running hv.line (by simp [Machine.counts, hactive, hat.outside]) hs
    hdispatch fun bound _ => rfl
  refine ⟨⟨_, hadvance⟩, _, hadvance, ?_, hat.outside⟩
  exact (Machine.closeLine_level _).trans (Machine.withLevel_level hm.onLine.nonempty c)

/-- **A line whose statement goes on with its code runs this code**, which cannot change the outermost context. -/
theorem Ready.enters (hv : v.Ready) {c' : Context} (hat : v.At c') (hactive : isPassive v.line = false) {s : Statement}
    (hs : v.machine.cursorStatement? = some s) {skip : Nat} (hcode : v.code = s.args.drop skip)
    (hentered : v.entered = v.machine.onLine.withLevel c) (hc : c.Coherent)
    (hdispatch : Machine.dispatch (Machine.invoke v.machine.nesting) s 0 v.machine.onLine =
      (.ok (.nested skip), v.machine.onLine.withLevel c)) (hsucceeds : v.CodeSucceeds) :
    v.RunsItsCode ∧ v.Leaves c := by
  have hm := hv.reachable.plain
  have hplain : v.entered.Plain := by
    rw [hentered]
    exact hm.onLine.withLevel hc
  rcases hrun : v.runCode with ⟨f | next, k⟩
  · have hok := hsucceeds.1
    rw [hrun] at hok
    cases hok
  · obtain ⟨rfl, hdeclaring⟩ := hplain.runNested_of_stays _ hsucceeds.2 hrun
    have hlevel : k.level = c := by
      rcases hplain.runNested_head? _ hrun with hsame | ⟨hreset, -⟩
      · rw [Machine.level_of_head? hsame, hentered]
        exact Machine.withLevel_level hm.onLine.nonempty c
      · cases hreset
    have hfollow : ∀ bound, s.args.length ≤ bound →
        Machine.follow (Machine.invoke v.machine.nesting) bound s.args 0 (.nested skip) (v.machine.onLine.withLevel c) =
          (.ok none, k) := by
      intro bound hbound
      rw [← hentered, ← hrun, runCode, hcode]
      have hshorter : (s.args.drop skip).length ≤ bound := by
        rw [List.length_drop]
        omega
      exact Machine.runNested_bound _ hshorter (Nat.le_refl _) 1 v.entered
    rw [Machine.cursorStatement?, hv.line] at hs
    have hadvance := hm.advance_of_dispatch hv.running hv.line (by simp [Machine.counts, hactive, hat.outside]) hs
      hdispatch hfollow
    refine ⟨⟨k, hrun, hadvance⟩, _, hadvance, (Machine.closeLine_level k).trans hlevel, ?_⟩
    have houtside : v.entered.symbols.declaring = none := hat.outside
    exact hdeclaring.trans houtside

/-- **A condition that is evaluated** runs its code exactly if it holds, and leaves its truth to the chain. -/
theorem Ready.condition (hv : v.Ready) {c' : Context} (hat : v.At c') (hlink : v.link = .condition) {word : String}
    (hopens : opensWith v.line word = true) (htries : v.machine.Tries word) (hwell : v.wellFormed = true)
    (hsucceeds : v.holds = true → v.CodeSucceeds) :
    (if v.holds then v.RunsItsCode else v.DoesNothing) ∧ v.Leaves ⟨some "if", v.holds, true⟩ := by
  have hword : word ∈ chainWords := by
    rcases htries with rfl | ⟨rfl, -⟩ <;> decide
  obtain ⟨s, hs, hopens'⟩ := hv.statement (by rw [hlink]; simp) hword hopens
  have hactive := not_passive_of_opensWith hopens
  -- The condition of the statement is the one that the line is said to have.
  obtain ⟨hvalid, hholds⟩ : validate word conditionDescriptors s.args = .ok () ∧
      Machine.holds v.machine.search (v.machine.invocation s) = .ok v.holds := by
    unfold wellFormed at hwell
    unfold holds
    rw [hs, Option.any_some, Bool.and_eq_true, hopens'.text] at hwell
    rw [hs, Option.any_some]
    constructor
    · cases hvalid : validate word conditionDescriptors s.args with
      | ok x => rfl
      | error f =>
        rw [hvalid] at hwell
        cases hwell.1
    · cases hholds : Machine.holds v.machine.search (v.machine.invocation s) with
      | ok b => rfl
      | error f =>
        rw [hholds] at hwell
        cases hwell.2
  have hdispatch := hv.reachable.plain.onLine.dispatch_condition (Machine.invoke v.machine.nesting) hopens' htries
    hvalid hholds
  cases htruth : v.holds with
  | false =>
    rw [htruth] at hdispatch
    exact hv.passes hat hactive hs hdispatch
  | true =>
    rw [htruth] at hdispatch
    have hcode : v.code = s.args.drop 3 := by
      rw [code, hs, hlink]
      rfl
    have hentered : v.entered = v.machine.onLine.withLevel ⟨some "if", true, true⟩ := by
      rw [entered, hlink]
      rfl
    exact hv.enters hat hactive hs hcode hentered (by simp [Context.Coherent]) hdispatch (hsucceeds htruth)

/-- **An alternative** runs its code exactly if no condition has held. -/
theorem Ready.alternative (hv : v.Ready) {c' : Context} (hat : v.At c') (hlink : v.link = .alternative) {word : String}
    (hopens : opensWith v.line word = true) {held : Bool} (htakes : v.machine.Takes word held)
    (hsucceeds : held = false → v.CodeSucceeds) :
    (if held then v.DoesNothing else v.RunsItsCode) ∧ v.Leaves ⟨some "else", held, false⟩ := by
  have hword : word ∈ chainWords := by
    rcases htakes with ⟨rfl, -⟩ | ⟨rfl, -⟩ <;> decide
  obtain ⟨s, hs, hopens'⟩ := hv.statement (by rw [hlink]; simp) hword hopens
  have hactive := not_passive_of_opensWith hopens
  have hdispatch := hv.reachable.plain.onLine.dispatch_alternative (Machine.invoke v.machine.nesting) hopens' htakes
  cases held with
  | true => exact hv.passes hat hactive hs hdispatch
  | false =>
    have hcode : v.code = s.args.drop 0 := by
      rw [code, hs, hlink]
      rfl
    have hentered : v.entered = v.machine.onLine.withLevel ⟨some "else", false, false⟩ := by
      rw [entered, hlink]
      rfl
    exact hv.enters hat hactive hs hcode hentered (by simp [Context.Coherent]) hdispatch (hsucceeds rfl)

/-- **A condition behind one that has held** does nothing, whether it could be evaluated or not. -/
theorem Ready.skipped (hv : v.Ready) (hat : v.At ⟨some "if", true, true⟩) (hlink : v.link = .condition)
    (hopens : opensWith v.line "|" = true) : v.DoesNothing ∧ v.Leaves ⟨some "if", true, true⟩ := by
  obtain ⟨s, hs, hopens'⟩ := hv.statement (by rw [hlink]; simp) (by decide) hopens
  have hm := hv.reachable.plain.onLine
  have hdispatch := hm.dispatch_skipped (Machine.invoke v.machine.nesting) hopens' hat.level
  have hsame : v.machine.onLine.withLevel ⟨some "if", true, true⟩ = v.machine.onLine := by
    have hself := Machine.withLevel_self hm.nonempty
    rwa [show v.machine.onLine.level = ⟨some "if", true, true⟩ from hat.level] at hself
  exact hv.passes hat (not_passive_of_opensWith hopens) hs (hdispatch.trans (by rw [hsame]))

end Visit

/-! ## Whole chains -/

/-- None of these conditions holds. -/
def NoneHolds (visits : List Visit) : Prop := ∀ v ∈ visits, v.link = .condition → v.holds = false

/-- **Exactly one alternative runs.** -/
inductive RunsOneAlternative (visits : List Visit) : Prop
  /-- The code of the first line whose condition holds, and besides that nothing. -/
  | condition (before : List Visit) (v : Visit) (after : List Visit) :
      visits = before ++ v :: after → v.link = .condition → v.holds = true → NoneHolds before →
      v.RunsItsCode → (∀ w ∈ before ++ after, w.DoesNothing) → RunsOneAlternative visits
  /-- When no condition holds, the code of `else` and of all lines that continue it, and besides that nothing. -/
  | alternative :
      NoneHolds visits → (∀ v ∈ visits, if v.link = .alternative then v.RunsItsCode else v.DoesNothing) →
      RunsOneAlternative visits

/-- The lines are executed one after another, the first of them in this context. -/
structure Going (visits : List Visit) (c : Context) : Prop where
  ready : ∀ v ∈ visits, v.Ready
  follows : visits.IsChain Visit.Follows
  at_head : ∀ v ∈ visits.head?, v.At c

variable {visits rest : List Visit} {v : Visit} {c c' : Context}

theorem Going.head (h : Going (v :: rest) c) : v.Ready ∧ v.At c :=
  ⟨h.ready v List.mem_cons_self, h.at_head v rfl⟩

/-- Behind a line the next ones go on in the context that it leaves. -/
theorem Going.tail (h : Going (v :: rest) c) (hleaves : v.Leaves c') : Going rest c' := by
  obtain ⟨hnext, hfollows⟩ := List.isChain_cons.mp h.follows
  refine ⟨fun w hw => h.ready w (List.mem_cons_of_mem v hw), hfollows, fun w hw => ?_⟩
  exact (hnext w hw).at hleaves

/-- **Behind `else`** all lines run their code exactly if no condition has held, by induction on the grammar. -/
theorem ElsePart.outcome (h : ElsePart visits) {held : Bool} (hgoing : Going visits ⟨some "else", held, false⟩)
    (horderly : held = false → Orderly visits) :
    ∀ v ∈ visits, v.link ≠ .condition ∧
      if held = false ∧ v.link = .alternative then v.RunsItsCode else v.DoesNothing := by
  induction h with
  | nil => simp
  | @passive v rest hlink hpassive _ ih =>
    obtain ⟨hready, hat⟩ := hgoing.head
    obtain ⟨hnothing, hleaves⟩ := hready.passive hpassive hat
    have hrest : held = false → Orderly rest := by
      intro hheld
      have := horderly hheld
      rwa [Orderly, hlink] at this
    refine List.forall_mem_cons.mpr ⟨⟨by rw [hlink]; simp, ?_⟩, ih (hgoing.tail hleaves) hrest⟩
    rw [hlink, if_neg (by simp)]
    exact hnothing
  | @more v rest hlink hopens _ ih =>
    obtain ⟨hready, hat⟩ := hgoing.head
    have hparts : held = false → v.CodeSucceeds ∧ Orderly rest := by
      intro hheld
      have := horderly hheld
      rwa [Orderly, hlink] at this
    obtain ⟨houtcome, hleaves⟩ :=
      hready.alternative hat hlink hopens (Or.inr ⟨rfl, hat.level⟩) fun hheld => (hparts hheld).1
    refine List.forall_mem_cons.mpr ⟨⟨by rw [hlink]; simp, ?_⟩, ih (hgoing.tail hleaves) fun hheld => (hparts hheld).2⟩
    cases held with
    | true => exact houtcome
    | false =>
      rw [if_pos ⟨rfl, hlink⟩]
      exact houtcome

/-- **Behind a condition that has held** nothing runs, by induction on the grammar. -/
theorem IfPart.skipped (h : IfPart visits) (hgoing : Going visits ⟨some "if", true, true⟩) :
    ∀ v ∈ visits, v.DoesNothing := by
  induction h with
  | nil => simp
  | passive hlink hpassive _ ih =>
    obtain ⟨hready, hat⟩ := hgoing.head
    obtain ⟨hnothing, hleaves⟩ := hready.passive hpassive hat
    exact List.forall_mem_cons.mpr ⟨hnothing, ih (hgoing.tail hleaves)⟩
  | condition hlink hopens _ ih =>
    obtain ⟨hready, hat⟩ := hgoing.head
    obtain ⟨hnothing, hleaves⟩ := hready.skipped hat hlink hopens
    exact List.forall_mem_cons.mpr ⟨hnothing, ih (hgoing.tail hleaves)⟩
  | otherwise hlink hopens helse =>
    obtain ⟨hready, hat⟩ := hgoing.head
    obtain ⟨hnothing, hleaves⟩ :=
      hready.alternative hat hlink hopens (Or.inl ⟨rfl, hat.level⟩) fun hheld => absurd hheld (by decide)
    have hrest := helse.outcome (hgoing.tail hleaves) fun hheld => absurd hheld (by decide)
    refine List.forall_mem_cons.mpr ⟨hnothing, fun w hw => ?_⟩
    simpa using (hrest w hw).2

/-- A line that does nothing, before a chain that has not got its alternative yet. -/
theorem RunsOneAlternative.cons (h : RunsOneAlternative rest) (hnothing : v.DoesNothing)
    (hholds : v.link = .condition → v.holds = false) (hlink : v.link ≠ .alternative) :
    RunsOneAlternative (v :: rest) := by
  cases h with
  | condition before w after hsplit hw hheld hnone hruns hothers =>
    refine .condition (v :: before) w after (by rw [hsplit, List.cons_append]) hw hheld ?_ hruns ?_
    · exact List.forall_mem_cons.mpr ⟨hholds, hnone⟩
    · exact List.forall_mem_cons.mpr ⟨hnothing, hothers⟩
  | alternative hnone houtcome =>
    refine .alternative (List.forall_mem_cons.mpr ⟨hholds, hnone⟩) (List.forall_mem_cons.mpr ⟨?_, houtcome⟩)
    rw [if_neg hlink]
    exact hnothing

/-- A condition that is evaluated: if it holds it is the alternative that runs, else the chain goes on. -/
theorem runsOneAlternative_of_condition (hlink : v.link = .condition) (hpart : IfPart rest)
    (hgoing : Going (v :: rest) c) {word : String} (hopens : opensWith v.line word = true)
    (htries : v.machine.Tries word) (horderly : Orderly (v :: rest))
    (hrest : Going rest ⟨some "if", false, true⟩ → Orderly rest → RunsOneAlternative rest) :
    RunsOneAlternative (v :: rest) := by
  obtain ⟨hready, hat⟩ := hgoing.head
  rw [Orderly, hlink] at horderly
  obtain ⟨hwell, hchosen⟩ := horderly
  cases hholds : v.holds with
  | true =>
    rw [hholds, if_pos rfl] at hchosen
    obtain ⟨hruns, hleaves⟩ := hready.condition hat hlink hopens htries hwell fun _ => hchosen
    rw [hholds] at hruns hleaves
    exact .condition [] v rest rfl hlink hholds (by simp [NoneHolds]) hruns (hpart.skipped (hgoing.tail hleaves))
  | false =>
    rw [hholds, if_neg Bool.false_ne_true] at hchosen
    obtain ⟨hnothing, hleaves⟩ := hready.condition hat hlink hopens htries hwell fun h => absurd (hholds.symm.trans h) (by decide)
    rw [hholds] at hnothing hleaves
    exact (hrest (hgoing.tail hleaves) hchosen).cons hnothing (fun _ => hholds) (by rw [hlink]; simp)

/-- As long as no condition has held the chain still gets its alternative, by induction on the grammar. -/
theorem IfPart.outcome (h : IfPart visits) (hgoing : Going visits ⟨some "if", false, true⟩)
    (horderly : Orderly visits) : RunsOneAlternative visits := by
  induction h with
  | nil => exact .alternative (by simp [NoneHolds]) (by simp)
  | passive hlink hpassive _ ih =>
    obtain ⟨hready, hat⟩ := hgoing.head
    obtain ⟨hnothing, hleaves⟩ := hready.passive hpassive hat
    rw [Orderly, hlink] at horderly
    exact (ih (hgoing.tail hleaves) horderly).cons hnothing (by rw [hlink]; simp) (by rw [hlink]; simp)
  | condition hlink hopens hpart ih =>
    have htries : Machine.Tries _ "|" := Or.inr ⟨rfl, hgoing.head.2.level⟩
    exact runsOneAlternative_of_condition hlink hpart hgoing hopens htries horderly ih
  | @otherwise v rest hlink hopens helse =>
    obtain ⟨hready, hat⟩ := hgoing.head
    rw [Orderly, hlink] at horderly
    obtain ⟨hruns, hleaves⟩ :=
      hready.alternative hat hlink hopens (Or.inl ⟨rfl, hat.level⟩) fun _ => horderly.1
    have hrest := helse.outcome (hgoing.tail hleaves) fun _ => horderly.2
    refine .alternative (List.forall_mem_cons.mpr ⟨by rw [hlink]; simp, fun w hw hcondition => ?_⟩)
      (List.forall_mem_cons.mpr ⟨?_, fun w hw => ?_⟩)
    · exact absurd hcondition (hrest w hw).1
    · rw [if_pos hlink]
      exact hruns
    · simpa using (hrest w hw).2

/-- **An if/else chain runs exactly one alternative**: the code of the first line whose condition holds runs exactly
once, and what comes behind it is neither evaluated nor checked; if no condition holds all of the code of `else` runs, in
order.  What the code itself executes, other chains included, makes no difference. -/
theorem one_alternative_runs (h : ChainRun visits) : RunsOneAlternative visits := by
  obtain ⟨hchain, hready, houtside, hfollows, horderly⟩ := h
  obtain ⟨hlink, hopens, hpart⟩ := hchain
  rename_i v rest
  have hgoing : Going (v :: rest) v.machine.level := by
    refine ⟨hready, hfollows, ?_⟩
    rintro _ ⟨⟩
    exact ⟨rfl, houtside v rfl⟩
  exact runsOneAlternative_of_condition hlink hpart hgoing hopens (Or.inl rfl) horderly hpart.outcome

/-- The alternative that runs is the code of the first condition that holds. -/
theorem RunsOneAlternative.of_holds (h : RunsOneAlternative visits) {before after : List Visit}
    (hsplit : visits = before ++ v :: after) (hlink : v.link = .condition) (hholds : v.holds = true)
    (hnone : NoneHolds before) : v.RunsItsCode ∧ ∀ w ∈ before ++ after, w.DoesNothing := by
  cases h with
  | alternative hnone' _ =>
    have hv : v ∈ visits := by simp [hsplit]
    exact absurd (hholds.symm.trans (hnone' v hv hlink)) (by decide)
  | condition before' v' after' hsplit' hlink' hholds' hnone' hruns hothers =>
    -- Of two conditions that hold, one in front of the other, the later one is not the first.
    rcases List.append_eq_append_iff.mp (hsplit.symm.trans hsplit') with ⟨as, hbefore, hafter⟩ | ⟨as, hbefore, hafter⟩
    · cases as with
      | nil =>
        obtain ⟨rfl, rfl⟩ := List.cons.inj hafter
        rw [List.append_nil] at hbefore
        exact ⟨hruns, hbefore ▸ hothers⟩
      | cons first as =>
        obtain ⟨rfl, -⟩ := List.cons.inj hafter
        exact absurd (hholds.symm.trans (hnone' v (by simp [hbefore]) hlink)) (by decide)
    · cases as with
      | nil =>
        obtain ⟨rfl, rfl⟩ := List.cons.inj hafter
        rw [List.append_nil] at hbefore
        exact ⟨hruns, hbefore ▸ hothers⟩
      | cons first as =>
        obtain ⟨rfl, -⟩ := List.cons.inj hafter
        exact absurd (hholds'.symm.trans (hnone v' (by simp [hbefore]) hlink')) (by decide)

/-- The visits of lines that a machine executes in its next moves, one each, when no host acts in between. -/
def visitsFrom (m : Machine) : List (Link × String) → List Visit
  | [] => []
  | (link, line) :: rest => ⟨link, line, m⟩ :: visitsFrom (m.stretch 1).last rest

theorem visitsFrom_follows (m : Machine) (lines : List (Link × String)) :
    (visitsFrom m lines).IsChain Visit.Follows := by
  induction lines generalizing m with
  | nil => exact .nil
  | cons first rest ih =>
    rw [visitsFrom]
    refine List.isChain_cons.mpr ⟨?_, ih _⟩
    intro w hw t ht
    have hlast : w.machine = t.last := by
      cases rest with
      | nil => cases hw
      | cons next rest =>
        cases hw
        rw [Machine.stretch_one ht]
    rw [hlast]
    constructor <;> rfl

/-- What can be checked of a line that is executed. -/
def Visit.checksReady (v : Visit) : Bool :=
  v.machine.mode = .running && (v.machine.script.lines[v.machine.cursor]? == some v.line &&
    (v.machine.script.notes.ignored.isEmpty && (tokenize v.machine.registry.types
      (some (resolver v.machine.symbols v.machine.objects)) v.line).isOk))

theorem visitsFrom_ready {m : Machine} (hm : m.Reachable) {lines : List (Link × String)}
    (h : (visitsFrom m lines).all Visit.checksReady = true) : ∀ v ∈ visitsFrom m lines, v.Ready := by
  induction lines generalizing m with
  | nil => rintro v ⟨⟩
  | cons first rest ih =>
    rw [visitsFrom, List.all_cons, Bool.and_eq_true] at h
    refine List.forall_mem_cons.mpr ⟨?_, ih (hm.stretch 1) h.2⟩
    simp only [Visit.checksReady, Bool.and_eq_true, decide_eq_true_eq, beq_iff_eq, List.isEmpty_iff] at h
    obtain ⟨⟨hmode, hline, hignored, htokens⟩, -⟩ := h
    exact ⟨hm, hmode, hline, hignored, fun _ => htokens⟩

/-- A chain whose second condition holds, with another condition in its code.  The third one could not be evaluated. -/
def secondHolds : Machine :=
  Machine.started "if a = b log x\n\n| a = a if b = b log y\n| c < d log z\nelse log w\n| log v"

/-- The lines of the chain, as they are executed. -/
def secondHoldsVisits : List Visit :=
  visitsFrom secondHolds
    [(.condition, "if a = b log x"), (.passive, ""), (.condition, "| a = a if b = b log y"),
      (.condition, "| c < d log z"), (.alternative, "else log w"), (.alternative, "| log v")]

/-- The code of the second condition runs, with the condition in it, and the other lines are passed over. -/
theorem one_alternative_runs_of_second : ∃ before v after, secondHoldsVisits = before ++ v :: after ∧
    ChainRun secondHoldsVisits ∧ v.line = "| a = a if b = b log y" ∧ v.RunsItsCode ∧
    (before ++ after).map (·.line) = ["if a = b log x", "", "| c < d log z", "else log w", "| log v"] ∧
    ∀ w ∈ before ++ after, w.DoesNothing := by
  have hchain : IsChain secondHoldsVisits := by
    refine .opens rfl ?_ (.passive rfl ?_ (.condition rfl ?_ (.condition rfl ?_ (.otherwise rfl ?_ (.more rfl ?_ .nil)))))
    all_goals decide
  have hreachable : secondHolds.Reachable := Machine.started_reachable _
  have hrun : ChainRun secondHoldsVisits :=
    { chain := hchain
      ready := visitsFrom_ready hreachable (by decide +kernel)
      outside := by
        rintro _ ⟨⟩
        decide +kernel
      follows := visitsFrom_follows _ _
      orderly := by decide +kernel }
  let v : Visit := ⟨.condition, "| a = a if b = b log y", ((secondHolds.stretch 1).last.stretch 1).last⟩
  have hholds : v.holds = true := by decide +kernel
  have hnone : NoneHolds (secondHoldsVisits.take 2) := by
    unfold NoneHolds
    decide +kernel
  have hsplit : secondHoldsVisits = secondHoldsVisits.take 2 ++ v :: secondHoldsVisits.drop 3 := rfl
  obtain ⟨hruns, hothers⟩ := (one_alternative_runs hrun).of_holds hsplit rfl hholds hnone
  exact ⟨_, v, _, hsplit, hrun, rfl, hruns, rfl, hothers⟩

end LineScript
