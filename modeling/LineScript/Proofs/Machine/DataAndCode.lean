/-
# Data is not code

References put what a machine holds into its lines: a line is cut first, and what a reference gives becomes one token.
What a machine holds is data (`Fed.holdsData`), and data is not admitted as code.

* `HoldsData.isData_of_isResolved`: what references give is data;
* `Row.Runs.not_isData`: a row that runs a keyword takes no data for code;
* `Row.refuses_data`: a row whose keyword is data fails by its form, and nothing has changed.

Main statement: `data_never_taken_for_code`, about every row of tokens that a line comes to.
-/
import LineScript.Proofs.Machine.Admission
import LineScript.Proofs.Machine.Rows
import LineScript.Proofs.Machine.Atomicity

namespace LineScript

open Act

/-! ## References -/

/-- A token of a line that stands where the line has a reference, or is the same as one that does. -/
def IsResolved (line : String) (tokens : List Token) (t : Token) : Prop :=
  ∃ (i : Nat) (raw : List Char) (reach : Reach),
    (scan line).lexemes[i]? = some (.reference raw reach) ∧ tokens[i]? = some t

/-- **What references give is data**, when the machine holds nothing else. -/
theorem Machine.HoldsData.isData_of_isResolved {m : Machine} (hm : m.HoldsData) {types : List WordType}
    {line : String} {tokens : List Token}
    (htokens : tokenize types (some (resolver m.symbols m.objects)) line = .ok tokens) {t : Token}
    (ht : IsResolved line tokens t) : t.IsData := by
  obtain ⟨i, raw, reach, hlexeme, htoken⟩ := ht
  obtain ⟨found, hfound, hlast⟩ := Symbols.bind_eq_ok htokens
  split at hlast
  · cases hlast
  · cases hlast
    obtain ⟨l, hl, hread⟩ := getElem?_of_mapM hfound htoken
    obtain rfl : l = .reference raw reach := Option.some.inj (hl.symm.trans hlexeme)
    obtain ⟨v, hv, hlast⟩ := Symbols.bind_eq_ok hread
    cases hlast
    exact ⟨hm.of_resolver hv, rfl⟩

/-! ## Labels -/

/-- What stands before the keyword of a statement are words that name labels. -/
theorem Statement.label_of_mem {isLabel : String → Bool} {first t : Token} {rest : List Token}
    (h : t ∈ (first :: rest).take (ofTokens isLabel first rest).labels.length) :
    t.isWord = true ∧ isLabel t.text = true := by
  induction rest generalizing first with
  | nil => cases h
  | cons second rest ih =>
    rw [ofTokens] at h
    split at h
    · rename_i hlabel
      rcases List.mem_cons.mp h with rfl | hmore
      · exact Bool.and_eq_true_iff.mp hlabel
      · exact ih hmore
    · cases h

theorem mem_codeWords_of_isLabel {name : String} (h : Registry.initial.isLabel name = true) : name ∈ codeWords := by
  have hname := (Roster.mem_names Registry.initial.labels name).mpr h
  exact List.mem_append_left _ (List.mem_append_right _ hname)

theorem mem_codeWords_of_lookup {name instead : String} (h : replacements.lookup name = some instead) :
    name ∈ codeWords := by
  obtain ⟨before, after, hentries, -⟩ := List.lookup_eq_some_iff.mp h
  refine List.mem_append_left _ (List.mem_append_left _ (List.mem_append_right _ ?_))
  rw [hentries, List.map_append]
  exact List.mem_append_right _ List.mem_cons_self

theorem mem_codeWords_of_ofName? {name : String} {b : Builtin} (h : Builtin.ofName? name = some b) :
    name ∈ codeWords := by
  have hname : b.name = name := by simpa using List.find?_some h
  rw [← hname]
  exact List.mem_append_left _ (List.mem_append_left _ (List.mem_append_left _
    (List.mem_map_of_mem (List.mem_of_find?_eq_some h))))

/-! ## Rows -/

namespace Row

variable {r : Row} {b : Builtin}

/-- The context that the statement before has left on the nesting level of the row. -/
def context (r : Row) : Context := (r.machine.contexts[r.depth]?).getD {}

/-- The labels that stand before the keyword. -/
def labels (r : Row) : List Token := (r.first :: r.rest).take r.statement.labels.length

/-- A row is its labels, its keyword and its arguments. -/
theorem tokens_eq (r : Row) : r.first :: r.rest = r.labels ++ r.statement.keyword :: r.statement.args := by
  obtain ⟨leading, htokens, hlabels⟩ := Statement.tokens_eq r.machine.registry.isLabel r.first r.rest
  have hlength : r.statement.labels.length = leading.length := by
    rw [statement, hlabels, List.length_map]
  rw [labels, hlength, htokens, List.take_left' rfl]
  rfl

/-- The row runs a built-in keyword: the script does not ask to skip it, its labels may stand before the keyword, and
its arguments pass the checks. -/
structure Runs (r : Row) (b : Builtin) : Prop where
  obeyed : r.ignored = false
  word : r.statement.keyword.isWord = true
  keyword : Builtin.ofName? r.statement.keyword.text = some b
  labels : Machine.checkLabels r.machine.registry r.statement.keyword.text r.statement.labels = .ok ()
  arguments : ∀ ds ∈ b.checks r.context, validate r.statement.keyword.text ds r.statement.args = .ok ()

/-- A token that a row takes for code when it runs a keyword. -/
inductive TakesForCode (r : Row) (b : Builtin) : Token → Prop
  | label {t : Token} : t ∈ r.labels → TakesForCode r b t
  | keyword : TakesForCode r b r.statement.keyword
  | argument {t : Token} {position : Nat} : b.takesForCode r.context position = true →
      r.statement.args[position]? = some t → TakesForCode r b t

/-- **A row that runs takes no data for code.** -/
theorem Runs.not_isData (h : r.Runs b) (hregistry : r.machine.registry = .initial) {t : Token}
    (ht : r.TakesForCode b t) : ¬ t.IsData := by
  intro hdata
  cases ht with
  | label hmem =>
    obtain ⟨hword, hlabel⟩ := Statement.label_of_mem hmem
    rw [hregistry] at hlabel
    exact hdata.text_not_code hword (mem_codeWords_of_isLabel hlabel)
  | keyword => exact hdata.text_not_code h.word (mem_codeWords_of_ofName? h.keyword)
  | argument htakes harg =>
    obtain ⟨ds, hds, hasks⟩ := exists_check_of_takesForCode htakes
    obtain ⟨d, hd, haccepts⟩ := accepts_of_validate (h.arguments ds hds) harg
    rw [hdata.rejected (hasks d hd)] at haccepts
    cases haccepts

/-- A check that comes first passes, or fails before anything has changed. -/
theorem validated_or_refused {α : Type} (m : Machine) (keyword : String) (ds : List Descriptor) (args : List Token)
    (next : Unit → Act α) :
    (∀ checked ∈ [ds], validate keyword checked args = .ok ()) ∨
      ∃ f, (Act.ofExcept (validate keyword ds args) >>= next) m = (.error f, m) := by
  cases hvalid : validate keyword ds args with
  | error f => exact Or.inr ⟨f, rfl⟩
  | ok x =>
    left
    intro checked hmem
    obtain rfl := List.mem_singleton.mp hmem
    exact hvalid

/-- A continuation checks its arguments once more, behind `if` and behind `class`. -/
theorem continuation_checked_or_refused {m : Machine} {i : Invocation} {depth : Nat} {c : Context}
    (hc : m.contexts[depth]? = some c) (hkeyword : "|" = i.keyword) :
    (∀ ds ∈ (Builtin.continuation.checks c).tail, validate i.keyword ds i.args = .ok ()) ∨
      ∃ f, Machine.runContinuation i depth m = (.error f, m) := by
  rw [Machine.runContinuation_apply hc, ← hkeyword]
  unfold Builtin.checks
  split
  · rename_i hif
    rw [if_pos hif]
    split_ifs
    · exact Or.inl (by rintro ds ⟨⟩)
    · exact validated_or_refused m "|" conditionDescriptors i.args _
  · rename_i hclass
    rw [hclass, if_neg (by decide), if_neg (by decide), if_pos rfl]
    have hproperty : (∀ ds ∈ [classPropertyDescriptors], validate "|" ds i.args = .ok ()) ∨
        ∃ f, Machine.addProperty i m = (.error f, m) :=
      validated_or_refused m "|" classPropertyDescriptors i.args _
    rcases hproperty with hchecked | ⟨f, hfails⟩
    · exact Or.inl hchecked
    · exact Or.inr ⟨f, bind_of_error hfails⟩
  · exact Or.inl (by rintro ds ⟨⟩)

/-- Running a keyword whose arguments do not pass all checks fails before anything has changed. -/
theorem checked_or_refused {m : Machine} {i : Invocation} {depth : Nat} {c : Context}
    (hc : m.contexts[depth]? = some c) (hb : Builtin.ofName? i.keyword = some b) :
    (∀ ds ∈ b.checks c, validate i.keyword ds i.args = .ok ()) ∨
      ∃ f, (Act.ofExcept (validate i.keyword b.descriptors i.args) >>= fun _ => Machine.runBuiltin b i depth) m =
        (.error f, m) := by
  cases hvalid : validate i.keyword b.descriptors i.args with
  | error f => exact Or.inr ⟨f, rfl⟩
  | ok x =>
    have hmore : (∀ ds ∈ (b.checks c).tail, validate i.keyword ds i.args = .ok ()) ∨
        ∃ f, Machine.runBuiltin b i depth m = (.error f, m) := by
      cases b with
      | continuation => exact continuation_checked_or_refused hc (Machine.name_of_ofName? hb)
      | _ => exact Or.inl (by rintro ds ⟨⟩)
    refine hmore.imp (fun hrest ds hds => ?_) id
    rcases List.mem_cons.mp hds with rfl | hmem
    · exact hvalid
    · exact hrest ds hmem

theorem kind_of_checkLabels {registry : Registry} {keyword : String} {labels : List String} {f : Fault}
    (h : Machine.checkLabels registry keyword labels = .error f) : f.kind = .form := by
  induction labels with
  | nil => cases h
  | cons label rest ih =>
    rw [Machine.checkLabels] at h
    split_ifs at h
    · exact ih h
    · cases h
      rfl

/-- A statement without a word for a keyword, or with a label out of place, fails at once. -/
theorem dispatch_cases (inv : Invoke) (r : Row) :
    (r.statement.keyword.isWord = true ∧
      Machine.checkLabels r.machine.registry r.statement.keyword.text r.statement.labels = .ok ()) ∨
      ∃ f, f.kind = .form ∧ r.dispatch inv = (.error f, r.machine) := by
  unfold dispatch Machine.dispatch
  dsimp only
  cases hword : r.statement.keyword.isWord with
  | false => exact Or.inr ⟨_, rfl, rfl⟩
  | true =>
    rw [Bool.not_true, if_neg Bool.false_ne_true, get_bind_apply]
    cases hlabels : Machine.checkLabels r.machine.registry r.statement.keyword.text r.statement.labels with
    | error f => exact Or.inr ⟨f, kind_of_checkLabels hlabels, rfl⟩
    | ok x => exact Or.inl ⟨rfl, rfl⟩

/-- Where the keyword fails, the statement does. -/
theorem dispatch_of_error {inv : Invoke} {f : Fault} (hword : r.statement.keyword.isWord = true)
    (hlabels : Machine.checkLabels r.machine.registry r.statement.keyword.text r.statement.labels = .ok ())
    (h : Machine.runKeyword inv (r.machine.invocation r.statement) r.depth r.machine = (.error f, r.machine)) :
    r.dispatch inv = (.error f, r.machine) := by
  rw [dispatch, Machine.dispatch_apply inv r.depth hword hlabels]
  exact bind_of_error h

/-- A name that is neither a keyword nor an old one is refused. -/
theorem runKeyword_unknown {m : Machine} (hplain : m.Plain) (inv : Invoke) {i : Invocation} (depth : Nat)
    (hold : replacements.lookup i.keyword = none) (hb : Builtin.ofName? i.keyword = none) :
    Machine.runKeyword inv i depth m = (.error (.keywordUnknown i.keyword), m) := by
  unfold Machine.runKeyword
  rw [hold]
  dsimp only
  rw [get_bind_apply, hplain.find?_keyword]
  dsimp only
  rw [hb]
  rfl

/-- **A row that the script does not ask to skip runs a built-in keyword, or warns of one that is gone, or fails before
anything has changed.** -/
theorem runs_or_refused (hplain : r.machine.Plain) (hdepth : r.depth < r.machine.contexts.length) (inv : Invoke)
    (hobeyed : r.ignored = false) :
    (∃ b, r.Runs b) ∨ (∃ instead, replacements.lookup r.statement.keyword.text = some instead) ∨
      ∃ f, r.dispatch inv = (.error f, r.machine) := by
  rcases r.dispatch_cases inv with ⟨hword, hlabels⟩ | ⟨f, -, hfails⟩
  · cases hold : replacements.lookup r.statement.keyword.text with
    | some instead => exact Or.inr (Or.inl ⟨instead, rfl⟩)
    | none =>
      cases hb : Builtin.ofName? r.statement.keyword.text with
      | none =>
        have hunknown := runKeyword_unknown (i := r.machine.invocation r.statement) hplain inv r.depth hold hb
        exact Or.inr (Or.inr ⟨_, dispatch_of_error hword hlabels hunknown⟩)
      | some b =>
        have hc : r.machine.contexts[r.depth]? = some r.context := by
          rw [context, List.getElem?_eq_getElem hdepth]
          rfl
        rcases checked_or_refused (i := r.machine.invocation r.statement) hc hb with hchecked | ⟨f, hfails⟩
        · exact Or.inl ⟨b, hobeyed, hword, hb, hlabels, hchecked⟩
        · rw [← hplain.runKeyword_builtin inv r.depth hold hb] at hfails
          exact Or.inr (Or.inr ⟨f, dispatch_of_error hword hlabels hfails⟩)
  · exact Or.inr (Or.inr ⟨f, hfails⟩)

/-- **A row whose keyword is data fails**, and nothing has changed. -/
theorem refuses_data (hplain : r.machine.Plain) (inv : Invoke) (hdata : r.statement.keyword.IsData) :
    ∃ f, f.kind = .form ∧ r.dispatch inv = (.error f, r.machine) := by
  rcases r.dispatch_cases inv with ⟨hword, hlabels⟩ | hfails
  · have hcode := hdata.text_not_code hword
    have hold : replacements.lookup r.statement.keyword.text = none := by
      cases hold : replacements.lookup r.statement.keyword.text with
      | none => rfl
      | some instead => exact absurd (mem_codeWords_of_lookup hold) hcode
    have hb : Builtin.ofName? r.statement.keyword.text = none := by
      cases hb : Builtin.ofName? r.statement.keyword.text with
      | none => rfl
      | some b => exact absurd (mem_codeWords_of_ofName? hb) hcode
    have hunknown := runKeyword_unknown (i := r.machine.invocation r.statement) hplain inv r.depth hold hb
    exact ⟨_, rfl, dispatch_of_error hword hlabels hunknown⟩
  · exact hfails

end Row

/-! ## Lines -/

namespace Machine

/-- The machine as it executes a line of the script, or one of the host. -/
def withExecuting (executing : Option Nat) (m : Machine) : Machine := { m with executing := executing }

/-- The rows that the tokens of a line come to. -/
def lineRows (tokens : List Token) (m : Machine) : List Row := rows (invoke m.nesting) tokens.length tokens 0 m

variable {m : Machine} {line : String} {tokens : List Token} {r : Row}

/-- Where the keyword of a row stands in the line. -/
theorem getElem?_keyword (hr : r ∈ m.lineRows tokens) :
    tokens[tokens.length - (r.statement.args.length + 1)]? = some r.statement.keyword := by
  obtain ⟨before, htokens⟩ := (reached_of_mem_rows hr).suffix
  rw [r.tokens_eq, ← List.append_assoc] at htokens
  have hposition : tokens.length - (r.statement.args.length + 1) = (before ++ r.labels).length := by
    rw [← htokens, List.length_append, List.length_cons]
    omega
  rw [hposition, ← htokens, List.getElem?_append_right (Nat.le_refl _), Nat.sub_self]
  rfl

/-- A line ends as the row of its tokens does. -/
theorem runLine_apply (inv : Invoke)
    (htokens : tokenize m.registry.types (some (resolver m.symbols m.objects)) line = .ok tokens) :
    runLine inv line m =
      ((runNested inv tokens.length tokens 0 m).1, (runNested inv tokens.length tokens 0 m).2.closeLine) := by
  rw [runLine, get_bind_apply, htokens]
  rfl

/-- A line with a row whose keyword stands where the line has a reference skips this row or fails with it, and changes
nothing. -/
theorem Plain.refuses_resolved (hplain : m.Plain) (hdata : m.HoldsData)
    (htokens : tokenize m.registry.types (some (resolver m.symbols m.objects)) line = .ok tokens)
    (hr : r ∈ m.lineRows tokens) (hresolved : IsResolved line tokens r.statement.keyword) :
    let ended := runLine (invoke m.nesting) line m
    (r.ignored = true ∧ ended.1 = .ok none ∨ r.ignored = false ∧ ∃ f, ended.1 = .error f ∧ f.kind = .form) ∧
      m.SameStores ended.2 := by
  obtain ⟨hrow, -⟩ := hplain.of_mem_rows (Nat.zero_le _) hr
  obtain ⟨-, cs, hmachine⟩ := reached_of_mem_rows hr
  obtain ⟨hskips, hfails⟩ := runNested_of_mem_rows hr
  have hstores : m.SameStores r.machine.closeLine := by
    rw [hmachine]
    exact ⟨rfl, rfl, rfl⟩
  dsimp only
  rw [runLine_apply _ htokens]
  cases hignored : r.ignored with
  | true =>
    rw [hskips hignored]
    exact ⟨Or.inl ⟨rfl, rfl⟩, hstores⟩
  | false =>
    obtain ⟨f, hform, hrefused⟩ := r.refuses_data hrow (invoke m.nesting) (hdata.isData_of_isResolved htokens hresolved)
    rw [hfails hignored f _ hrefused]
    exact ⟨Or.inr ⟨rfl, f, rfl, hform⟩, hstores⟩

/-- **Data is never taken for code.**  Let a machine that is fed with data execute a line, of the script or of the host,
and let `r` be any of the rows that the line comes to, at any depth of nested code.

* The row is skipped, or it runs a built-in keyword, or it warns of a keyword that is gone, or it fails before anything
  has changed.
* When it runs a keyword, then neither this keyword, nor a label, nor an argument that is taken for code stands where
  the line has a reference.
* When its keyword stands where the line has a reference, then the row is skipped if it begins with a word that the
  script asks to skip, and fails by its form if not.  In either case no name, call, object or message has changed. -/
theorem data_never_taken_for_code (hm : m.Fed) (executing : Option Nat)
    (htokens : tokenize m.registry.types (some (resolver m.symbols m.objects)) line = .ok tokens)
    (hr : r ∈ (m.withExecuting executing).lineRows tokens) :
    (r.ignored = true ∨ (∃ b, r.Runs b) ∨ (∃ instead, replacements.lookup r.statement.keyword.text = some instead) ∨
      ∃ f, r.dispatch (invoke m.nesting) = (.error f, r.machine)) ∧
    (∀ b, r.Runs b → ∀ t, r.TakesForCode b t → ¬ IsResolved line tokens t) ∧
    (IsResolved line tokens r.statement.keyword →
      let ended := runLine (invoke m.nesting) line (m.withExecuting executing)
      (r.ignored = true ∧ ended.1 = .ok none ∨ r.ignored = false ∧ ∃ f, ended.1 = .error f ∧ f.kind = .form) ∧
        m.SameStores ended.2) := by
  have hplain : (m.withExecuting executing).Plain :=
    ⟨hm.reachable.plain.keywords, hm.reachable.plain.coherent, hm.reachable.plain.nonempty⟩
  have hdata : (m.withExecuting executing).HoldsData := ⟨hm.holdsData.symbols, hm.holdsData.objects⟩
  refine ⟨?_, fun b hb t ht hresolved => ?_, fun hresolved => ?_⟩
  · obtain ⟨hrow, hdepth⟩ := hplain.of_mem_rows (Nat.zero_le _) hr
    cases hignored : r.ignored with
    | true => exact Or.inl rfl
    | false => exact Or.inr (r.runs_or_refused hrow hdepth _ hignored)
  · obtain ⟨-, cs, hmachine⟩ := reached_of_mem_rows hr
    have hregistry : r.machine.registry = .initial := by
      rw [hmachine]
      exact hm.reachable.registry
    exact hb.not_isData hregistry ht (hdata.isData_of_isResolved htokens hresolved)
  · obtain ⟨hends, hstores⟩ := hplain.refuses_resolved hdata htokens hr hresolved
    exact ⟨hends, hstores.symbols, hstores.objects, hstores.console⟩

/-! ## Two lines -/

/-- What can be checked of a row of a line: its keyword stands where the line has a reference, and `p` holds of it. -/
theorem exists_resolved_keyword (line : String) (position : Nat) (raw : List Char) (reach : Reach) {p : Row → Bool}
    (hlexeme : (scan line).lexemes[position]? = some (.reference raw reach))
    (hrow : (tokenize m.registry.types (some (resolver m.symbols m.objects)) line).toOption.any (fun tokens =>
      (m.lineRows tokens).any fun r => tokens.length - (r.statement.args.length + 1) == position && p r) = true) :
    ∃ tokens r, tokenize m.registry.types (some (resolver m.symbols m.objects)) line = .ok tokens ∧
      r ∈ m.lineRows tokens ∧ IsResolved line tokens r.statement.keyword ∧ p r = true := by
  cases htokens : tokenize m.registry.types (some (resolver m.symbols m.objects)) line with
  | error f =>
    rw [htokens] at hrow
    cases hrow
  | ok tokens =>
    rw [htokens] at hrow
    obtain ⟨r, hr, hchecks⟩ := List.any_eq_true.mp hrow
    rw [Bool.and_eq_true, beq_iff_eq] at hchecks
    obtain ⟨hposition, hp⟩ := hchecks
    have hkeyword := getElem?_keyword hr
    rw [hposition] at hkeyword
    exact ⟨tokens, r, rfl, hr, ⟨position, raw, reach, hlexeme, hkeyword⟩, hp⟩

/-- A condition whose code begins with a reference to a text. -/
def beforeResolved : Machine := ((started "var x y\nif a = a \\x\\ z").stretch 1).last

theorem beforeResolved_fed : beforeResolved.Fed := (ReachedBy.started _ rfl).stretch 1

/-- The text that a reference gives is refused as a keyword in nested code, too. -/
theorem data_never_taken_for_code_of_nested : ∃ tokens r, beforeResolved.Fed ∧
    tokenize beforeResolved.registry.types (some (resolver beforeResolved.symbols beforeResolved.objects))
      "if a = a \\x\\ z" = .ok tokens ∧
    r ∈ (beforeResolved.withExecuting (some 1)).lineRows tokens ∧
    IsResolved "if a = a \\x\\ z" tokens r.statement.keyword ∧
    ∃ f, (runLine (invoke beforeResolved.nesting) "if a = a \\x\\ z" (beforeResolved.withExecuting (some 1))).1 =
      .error f ∧ f.kind = .form := by
  obtain ⟨tokens, r, htokens, hr, hresolved, hobeyed⟩ := exists_resolved_keyword
    (m := beforeResolved.withExecuting (some 1)) "if a = a \\x\\ z" 4 ['x'] .nearest (p := fun r => !r.ignored)
    (by decide +kernel) (by decide +kernel)
  obtain ⟨-, -, hrefused⟩ := data_never_taken_for_code beforeResolved_fed (some 1) htokens hr
  obtain ⟨⟨hignored, -⟩ | ⟨-, hfails⟩, -⟩ := hrefused hresolved
  · rw [hignored] at hobeyed
    cases hobeyed
  · exact ⟨tokens, r, beforeResolved_fed, htokens, hr, hresolved, hfails⟩

/-- A script that asks to skip what begins with a label. -/
def beforeIgnored : Machine := ((started "[ignore global]\nvar x y\nglobal \\x\\ z").stretch 2).last

theorem beforeIgnored_fed : beforeIgnored.Fed := (ReachedBy.started _ rfl).stretch 2

/-- **A row may be skipped for its label** though its keyword stands where the line has a reference, to a text that the
script does not ask to skip. -/
theorem label_skips_resolved_keyword : ∃ line tokens r, beforeIgnored.Fed ∧
    beforeIgnored.script.lines[beforeIgnored.cursor]? = some line ∧
    tokenize beforeIgnored.registry.types (some (resolver beforeIgnored.symbols beforeIgnored.objects)) line =
      .ok tokens ∧
    r ∈ beforeIgnored.onLine.lineRows tokens ∧ IsResolved line tokens r.statement.keyword ∧
    r.statement.keyword.text ∉ beforeIgnored.script.notes.ignored ∧
    (runLine (invoke beforeIgnored.nesting) line beforeIgnored.onLine).1 = .ok none := by
  obtain ⟨tokens, r, htokens, hr, hresolved, hchecks⟩ := exists_resolved_keyword (m := beforeIgnored.onLine)
    "global \\x\\ z" 1 ['x'] .nearest
    (p := fun r => r.ignored && !beforeIgnored.script.notes.ignored.contains r.statement.keyword.text)
    (by decide +kernel) (by decide +kernel)
  rw [Bool.and_eq_true] at hchecks
  obtain ⟨hignored, hunlisted⟩ := hchecks
  refine ⟨_, tokens, r, beforeIgnored_fed, by decide +kernel, htokens, hr, hresolved, by simpa using hunlisted, ?_⟩
  have hdata : beforeIgnored.onLine.HoldsData :=
    ⟨beforeIgnored_fed.holdsData.symbols, beforeIgnored_fed.holdsData.objects⟩
  obtain ⟨⟨-, hskipped⟩ | ⟨hobeyed, -⟩, -⟩ :=
    beforeIgnored_fed.reachable.plain.onLine.refuses_resolved hdata htokens hr hresolved
  · exact hskipped
  · rw [hignored] at hobeyed
    cases hobeyed

end Machine

end LineScript
