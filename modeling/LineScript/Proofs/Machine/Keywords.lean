/-
# Lines of built-in keywords

A line runs the built-in keyword that it begins with when nothing stands in the way (`Machine.Obeys`): the script does
not ask to skip the word, no extension has made a label, a keyword or a string of it.  Such a line checks its arguments
and runs the keyword on them, on the outermost level (`runLine_of_builtin`), and then it is over, since keywords that
open no code are meant here.

* `runLine_builtin_eq_ok`: what a line that succeeds has done;
* `runLine_builtin_of_ok`, `runLine_builtin_of_error`, `runLine_builtin_of_invalid`: how a line ends whose keyword
  succeeds or fails, or whose arguments are rejected;
* `runLine_of_ignored`, `runLine_of_string`: a line that the script asks to skip does nothing, and one that begins with
  a string fails.
-/
import LineScript.Proofs.Machine.DataAndCode
import LineScript.Proofs.Script.Words

namespace LineScript

open Act

/-- A word that is no label begins its own statement. -/
theorem Statement.ofTokens_of_unlabelled {isLabel : String → Bool} {first : Token}
    (h : (first.isWord && isLabel first.text) = false) (rest : List Token) :
    ofTokens isLabel first rest = { keyword := first, args := rest } := by
  cases rest with
  | nil => rfl
  | cons second rest => rw [ofTokens, if_neg (by rw [h]; exact Bool.false_ne_true)]

/-- An identifier is known by its tag. -/
theorem Spec.accepts_identifier (t : Token) :
    (Spec.ofText "identifier").accepts t = (t.value.tag.name == "identifier") := by
  have hspec : Spec.ofText "identifier" = .tags ["identifier"] := by decide
  rw [hspec]
  simp [Spec.accepts]

/-- An identifier passes where one is asked for. -/
theorem Descriptor.check_identifier {keyword name : String} {t : Token}
    (h : (Spec.ofText "identifier").accepts t = true) : (ofText name "identifier").check keyword t = .ok () :=
  if_pos h

/-- A built-in keyword is not one of those that are gone. -/
theorem not_replaced_of_ofName? {name : String} {b : Builtin} (h : Builtin.ofName? name = some b) :
    replacements.lookup name = none := by
  have hall : ∀ b ∈ Builtin.all, replacements.lookup b.name = none := by decide
  rw [← Machine.name_of_ofName? h]
  exact hall b (List.mem_of_find?_eq_some h)

namespace Machine

/-- A statement that begins with this word is run, and the word is the name of a keyword to it, not of a label. -/
structure Obeys (m : Machine) (keyword : String) : Prop where
  /-- No literal class makes a string of the word. -/
  word : (wordToken m.registry.types keyword).isWord = true
  heeded : keyword ∉ m.script.notes.ignored
  unlabelled : m.registry.isLabel keyword = false
  /-- No extension has a keyword of this name. -/
  free : m.registry.keywords.find? keyword = none

variable {m k : Machine} {keyword line : String} {b : Builtin} {args : List Token} {next : Option Nat}

@[simp] theorem openContext_symbols (depth : Nat) (m : Machine) : (m.openContext depth).symbols = m.symbols := by
  unfold openContext
  split_ifs <;> rfl

@[simp] theorem closeLine_symbols (m : Machine) : m.closeLine.symbols = m.symbols := rfl

/-- What is left of a statement at the end of its line is in the contexts. -/
theorem closeLine_leaveContext (keyword : String) (depth : Nat) (m : Machine) :
    ∃ cs, (m.leaveContext keyword depth).closeLine = m.withContexts cs := by
  unfold leaveContext
  split_ifs
  · exact ⟨_, rfl⟩
  · exact ⟨_, rfl⟩

/-- An operation on the names that succeeds changes nothing else. -/
theorem onSymbolsReply_of_ok {α : Type} {f : Symbols → Except Fault (α × Symbols)} {x : α} {s : Symbols}
    (h : f m.symbols = .ok (x, s)) : onSymbolsReply f m = (.ok x, { m with symbols := s }) := by
  rw [onSymbolsReply, get_bind_apply, h]
  rfl

/-- The text of an argument that is there. -/
theorem text_of_getElem? {i : Invocation} {position : Nat} {t : Token} (h : i.args[position]? = some t) :
    i.text position = .ok t.text := by
  rw [Invocation.text, Invocation.text?, h]
  rfl

/-- Without extensions every built-in keyword that the script does not ask to skip is obeyed. -/
theorem Reachable.obeys (hm : m.Reachable) (hb : Builtin.ofName? keyword = some b)
    (hheeded : keyword ∉ m.script.notes.ignored) : m.Obeys keyword := by
  have hall : ∀ b ∈ Builtin.all, (wordToken Registry.initial.types b.name).isWord = true ∧
      Registry.initial.isLabel b.name = false := by
    decide
  obtain ⟨hword, hlabel⟩ := hall b (List.mem_of_find?_eq_some hb)
  rw [name_of_ofName? hb] at hword hlabel
  refine ⟨?_, hheeded, ?_, hm.plain.find?_keyword keyword⟩
  · rw [hm.registry]
    exact hword
  · rw [hm.registry]
    exact hlabel

theorem Obeys.withExecuting (h : m.Obeys keyword) (executing : Option Nat) :
    (m.withExecuting executing).Obeys keyword :=
  ⟨h.word, h.heeded, h.unlabelled, h.free⟩

/-- A word that the script lists is skipped, unless a literal class makes a string of it. -/
theorem isIgnored_wordToken (hlisted : keyword ∈ m.script.notes.ignored)
    (hword : (wordToken m.registry.types keyword).isWord = true) :
    m.isIgnored (wordToken m.registry.types keyword) = true := by
  rw [isIgnored, Bool.and_eq_true]
  exact ⟨hword, List.contains_iff_mem.mpr hlisted⟩

/-- A line that the script asks to skip leaves nothing but the outermost context as it was. -/
theorem runLine_of_ignored (inv : Invoke) {first : Token} {rest : List Token}
    (htokens : tokenize m.registry.types (some (resolver m.symbols m.objects)) line = .ok (first :: rest))
    (hignored : m.isIgnored first = true) : runLine inv line m = (.ok none, (m.openContext 0).closeLine) := by
  rw [runLine_apply inv htokens, List.length_cons, runNested_cons, if_pos hignored]

/-- A line that begins with a string fails. -/
theorem runLine_of_string (inv : Invoke) {first : Token} {rest : List Token}
    (htokens : tokenize m.registry.types (some (resolver m.symbols m.objects)) line = .ok (first :: rest))
    (hstring : first.isWord = false) :
    runLine inv line m = (.error (.noKeyword first.value.tag first.text), (m.openContext 0).closeLine) := by
  have hheeded : m.isIgnored first = false := by rw [isIgnored, hstring, Bool.false_and]
  have hlabel : (first.isWord && m.registry.isLabel first.text) = false := by rw [hstring, Bool.false_and]
  have hdispatch : dispatch inv { keyword := first, args := rest } 0 (m.openContext 0) =
      (.error (.noKeyword first.value.tag first.text), m.openContext 0) := by
    unfold dispatch
    rw [hstring]
    rfl
  rw [runLine_apply inv htokens, List.length_cons, runNested_cons, hheeded, if_neg Bool.false_ne_true,
    Statement.ofTokens_of_unlabelled hlabel, bind_of_error hdispatch]

/-- A line that succeeds could be cut into tokens. -/
theorem exists_tokens_of_runLine {inv : Invoke} (h : runLine inv line m = (.ok next, k)) :
    ∃ tokens, tokenize m.registry.types (some (resolver m.symbols m.objects)) line = .ok tokens := by
  rw [runLine, get_bind_apply] at h
  obtain ⟨tokens, _, hcut, -⟩ := bind_eq_ok h
  exact ⟨tokens, (ofExcept_eq_ok hcut).1⟩

/-- Behind a keyword that opens no code there is nothing to follow. -/
theorem follow_of_closed (inv : Invoke) (bound : Nat) (args : List Token) (depth : Nat) {step : Next}
    (h : Closed step) : follow inv bound args depth step = pure step.line? := by
  cases step with
  | following => rfl
  | line n => rfl
  | nested skip => exact absurd rfl (h skip)

/-- A keyword on its arguments, which are checked first, and the context that it leaves. -/
def runChecked (b : Builtin) (i : Invocation) : Act Next := do
  Act.ofExcept (validate i.keyword b.descriptors i.args)
  let step ← runBuiltin b i 0
  modify (leaveContext i.keyword 0)
  return step

section Checked

variable {i : Invocation} {step : Next}

theorem runChecked_of_ok (hvalid : validate i.keyword b.descriptors i.args = .ok ())
    (hrun : runBuiltin b i 0 m = (.ok step, k)) : runChecked b i m = (.ok step, k.leaveContext i.keyword 0) := by
  rw [runChecked, bind_of_ok (show Act.ofExcept _ m = (.ok (), m) by rw [hvalid, ofExcept_apply]), bind_of_ok hrun]
  rfl

theorem runChecked_of_error {f : Fault} (hvalid : validate i.keyword b.descriptors i.args = .ok ())
    (hrun : runBuiltin b i 0 m = (.error f, k)) : runChecked b i m = (.error f, k) := by
  rw [runChecked, bind_of_ok (show Act.ofExcept _ m = (.ok (), m) by rw [hvalid, ofExcept_apply]), bind_of_error hrun]

theorem runChecked_of_invalid {f : Fault} (hinvalid : validate i.keyword b.descriptors i.args = .error f) :
    runChecked b i m = (.error f, m) := by
  rw [runChecked, hinvalid]
  rfl

theorem runChecked_eq_ok (h : runChecked b i m = (.ok step, k)) :
    validate i.keyword b.descriptors i.args = .ok () ∧
      ∃ k', runBuiltin b i 0 m = (.ok step, k') ∧ k = k'.leaveContext i.keyword 0 := by
  obtain ⟨_, _, hvalid, hrest⟩ := bind_eq_ok h
  obtain ⟨hvalid', rfl⟩ := ofExcept_eq_ok hvalid
  obtain ⟨step', k', hrun, hlast⟩ := bind_eq_ok hrest
  rw [modify_bind_apply, pure_apply] at hlast
  cases hlast
  exact ⟨hvalid', k', hrun, rfl⟩

end Checked

/-- A statement with a built-in keyword runs it on its arguments. -/
theorem Obeys.dispatch_builtin (h : m.Obeys keyword) (hb : Builtin.ofName? keyword = some b) (inv : Invoke)
    (args : List Token) :
    dispatch inv { keyword := wordToken m.registry.types keyword, args := args } 0 m =
      runChecked b ⟨keyword, [], args, m.cursor⟩ m := by
  have hkeyword := runKeyword_builtin (m := m) inv (i := ⟨keyword, [], args, m.cursor⟩) 0 h.free
    (not_replaced_of_ofName? hb) hb
  rw [dispatch_apply inv 0 h.word rfl]
  refine (bind_congr_left hkeyword _).trans ?_
  unfold runChecked
  rw [bind_apply, bind_apply, bind_apply, ofExcept_apply]
  cases validate keyword b.descriptors args with
  | error f => rfl
  | ok x =>
    dsimp only
    rw [bind_apply]
    rfl

section Lines

variable (hobeys : m.Obeys keyword)
  (htokens : tokenize m.registry.types (some (resolver m.symbols m.objects)) line =
    .ok (wordToken m.registry.types keyword :: args))
  (hb : Builtin.ofName? keyword = some b) (inv : Invoke)
include hobeys htokens hb

/-- **A line of a built-in keyword runs it on its arguments**, on the outermost level. -/
theorem runLine_of_builtin :
    runLine inv line m =
      ((runChecked b ⟨keyword, [], args, m.cursor⟩ >>= follow inv args.length args 0).finally closeLine)
        (m.openContext 0) := by
  have hheeded : m.isIgnored (wordToken m.registry.types keyword) = false := by
    have hlisted : m.script.notes.ignored.contains keyword = false := by simpa using hobeys.heeded
    rw [isIgnored, wordToken, hlisted, Bool.and_false]
  have hlabel : ((wordToken m.registry.types keyword).isWord &&
      m.registry.isLabel (wordToken m.registry.types keyword).text) = false := by
    rw [wordToken, hobeys.unlabelled, Bool.and_false]
  -- Opening the level leaves all that the statement is read by.
  obtain ⟨cs, hopen, -⟩ := m.openContext_eq_withContexts 0
  have hopened : (m.withContexts cs).Obeys keyword :=
    ⟨hobeys.word, hobeys.heeded, hobeys.unlabelled, hobeys.free⟩
  have hdispatch : dispatch inv { keyword := wordToken m.registry.types keyword, args := args } 0 (m.withContexts cs) =
      runChecked b ⟨keyword, [], args, m.cursor⟩ (m.withContexts cs) :=
    hopened.dispatch_builtin hb inv args
  rw [runLine_apply inv htokens, List.length_cons, runNested_cons, hheeded, if_neg Bool.false_ne_true,
    Statement.ofTokens_of_unlabelled hlabel, finally_apply, hopen, bind_congr_left hdispatch]

/-- A line whose arguments are rejected ends there. -/
theorem runLine_builtin_of_invalid {f : Fault} (hinvalid : validate keyword b.descriptors args = .error f) :
    runLine inv line m = (.error f, (m.openContext 0).closeLine) := by
  have hends : runChecked b ⟨keyword, [], args, m.cursor⟩ (m.openContext 0) = (.error f, m.openContext 0) :=
    runChecked_of_invalid hinvalid
  rw [runLine_of_builtin hobeys htokens hb, finally_apply, bind_of_error hends]

/-- A line whose keyword fails ends there. -/
theorem runLine_builtin_of_error {f : Fault} (hvalid : validate keyword b.descriptors args = .ok ())
    (hrun : runBuiltin b ⟨keyword, [], args, m.cursor⟩ 0 (m.openContext 0) = (.error f, k)) :
    runLine inv line m = (.error f, k.closeLine) := by
  have hends : runChecked b ⟨keyword, [], args, m.cursor⟩ (m.openContext 0) = (.error f, k) :=
    runChecked_of_error hvalid hrun
  rw [runLine_of_builtin hobeys htokens hb, finally_apply, bind_of_error hends]

variable (hcode : b.opensCode = false)
include hcode

/-- A line whose keyword succeeds goes on where the keyword says. -/
theorem runLine_builtin_of_ok {step : Next} (hvalid : validate keyword b.descriptors args = .ok ())
    (hrun : runBuiltin b ⟨keyword, [], args, m.cursor⟩ 0 (m.openContext 0) = (.ok step, k)) :
    runLine inv line m = (.ok step.line?, (k.leaveContext keyword 0).closeLine) := by
  have hclosed : Closed step := (closed_runBuiltin hcode _ _ _).of_ok hrun
  have hends : runChecked b ⟨keyword, [], args, m.cursor⟩ (m.openContext 0) = (.ok step, k.leaveContext keyword 0) :=
    runChecked_of_ok hvalid hrun
  rw [runLine_of_builtin hobeys htokens hb, finally_apply, bind_of_ok hends, follow_of_closed inv _ _ _ hclosed,
    pure_apply]

/-- **What a line that succeeds has done**: its arguments have been checked, and its keyword has succeeded. -/
theorem runLine_builtin_eq_ok (h : runLine inv line m = (.ok next, k)) :
    validate keyword b.descriptors args = .ok () ∧ ∃ step k',
      runBuiltin b ⟨keyword, [], args, m.cursor⟩ 0 (m.openContext 0) = (.ok step, k') ∧ next = step.line? ∧
        k = (k'.leaveContext keyword 0).closeLine := by
  rw [runLine_of_builtin hobeys htokens hb, finally_apply] at h
  rcases hends : (runChecked b ⟨keyword, [], args, m.cursor⟩ >>= follow inv args.length args 0) (m.openContext 0)
    with ⟨f | answer, inner⟩
  · rw [hends] at h
    cases h
  · rw [hends] at h
    cases h
    obtain ⟨step, inner', hchecked, hfollow⟩ := bind_eq_ok hends
    obtain ⟨hvalid, k', hrun, rfl⟩ := runChecked_eq_ok hchecked
    rw [follow_of_closed inv _ _ _ ((closed_runBuiltin hcode _ _ _).of_ok hrun)] at hfollow
    cases hfollow
    exact ⟨hvalid, step, k', hrun, rfl, rfl⟩

end Lines

/-! ## What can be checked of an end -/

theorem ends_of_isOk {α : Type} {ended : Except Fault α × Machine} (h : ended.1.isOk = true) :
    ∃ x, ended = (.ok x, ended.2) := by
  rcases ended with ⟨f | x, k⟩
  · cases h
  · exact ⟨x, rfl⟩

theorem fails_of_not_isOk {α : Type} {answer : Except Fault α} (h : answer.isOk = false) :
    ∃ f, answer = .error f := by
  cases answer with
  | error f => exact ⟨f, rfl⟩
  | ok x => cases h

end Machine

end LineScript
