/-
# Names that can be read back

A line that gives a name a value is of use when a later line can read the name.  Both conventions agree for plain
names, which a reference reads as they are written (`IsPlainName`):

* a variable that a line of the script declares is read with the value given, in its stored form
  (`declared_variable_reads_back`);
* a parameter with a type of an extension can be given a word of this type, and is read with it, so that it is accepted
  wherever the type is asked for (`typed_parameter_reads_back`).

Names with a mark of their own are declared as well, and cannot be read (`marked_names_not_read`).  A literal class
gives its type to words only, and a word is stored without it, so no call satisfies a parameter with such a type
(`typed_parameters_refused`).
-/
import LineScript.Proofs.Machine.Keywords

namespace LineScript

open Act Text

/-! ## Variables -/

/-- A variable that has just been declared is looked up with its value. -/
theorem Symbols.lookup_declared {s s' : Symbols} {name : String} {v : Value} (hcalls : s.calls = [])
    (hnew : s.locals.find? name = none) (h : s.declare name (some v) false = .ok s') :
    s'.lookup name .nearest = .ok v.normalized := by
  obtain ⟨var, rfl, ⟨-, rfl⟩ | ⟨old, hold, -⟩⟩ := Symbols.declare_entry h
  · have hlookup :
        (s.withTable false ((s.table false).enter name { value := some v.normalized })).lookup name .nearest =
          readable (s.locals.enter name { value := some v.normalized }) false name := by
      unfold lookup
      dsimp only [withTable, table]
      rw [hcalls]
      rfl
    refine hlookup.trans ?_
    unfold readable
    rw [Catalog.find?_enter_self]
    rfl
  · cases hnew.symm.trans hold

/-- `var` takes one value at most. -/
theorem length_of_validate_declare {name : Token} {given : List Token}
    (h : validate "var" Builtin.declare.descriptors (name :: given) = .ok ()) : given.length ≤ 1 := by
  obtain ⟨_, -, h⟩ := Symbols.bind_eq_ok h
  cases given with
  | nil => exact Nat.zero_le 1
  | cons v more =>
    obtain ⟨_, -, h⟩ := Symbols.bind_eq_ok h
    cases more with
    | nil => exact Nat.le_refl 1
    | cons w more => cases h

namespace Machine

variable {m k : Machine} {next : Option Nat} {inv : Invoke}

/-- A declaration without label that succeeds declares a local variable. -/
theorem runDeclare_eq_ok {i : Invocation} {name : String} {step : Next} (hname : i.text 0 = .ok name)
    (hlabels : i.labels = []) (h : runDeclare i m = (.ok step, k)) :
    ∃ s, m.symbols.declare name (i.value? 1) false = .ok s ∧ k = { m with symbols := s } := by
  have hlocal : i.hasLabel "global" = false := by
    rw [Invocation.hasLabel, hlabels]
    rfl
  obtain ⟨name', _, htext, hrest⟩ := bind_eq_ok (show (Act.ofExcept (i.text 0) >>= _) m = _ from h)
  obtain ⟨htext', rfl⟩ := ofExcept_eq_ok htext
  cases hname.symm.trans htext'
  obtain ⟨_, k', hdeclares, hlast⟩ := bind_eq_ok hrest
  rw [hlocal] at hdeclares
  obtain ⟨s, hs, rfl⟩ := (ends_onSymbols _ m).of_ok hdeclares
  cases hlast
  exact ⟨s, hs, rfl⟩

/-- A line of `var`, the name and at most one more token, that succeeds has declared a local variable. -/
theorem runLine_declare_eq_ok {line name : String} {given : List Token} (hobeys : m.Obeys "var")
    (htokens : tokenize m.registry.types (some (resolver m.symbols m.objects)) line =
      .ok (wordToken m.registry.types "var" :: wordToken m.registry.types name :: given))
    (h : runLine inv line m = (.ok next, k)) :
    given.length ≤ 1 ∧ m.symbols.declare name (given[0]?.map (·.value)) false = .ok k.symbols := by
  obtain ⟨hvalid, step, k', hbuiltin, -, rfl⟩ := runLine_builtin_eq_ok hobeys htokens rfl inv rfl h
  have hname : Invocation.text ⟨"var", [], wordToken m.registry.types name :: given, m.cursor⟩ 0 = .ok name := rfl
  obtain ⟨s, hdeclares, rfl⟩ := runDeclare_eq_ok hname rfl hbuiltin
  rw [openContext_symbols] at hdeclares
  rw [closeLine_symbols, leaveContext_symbols]
  exact ⟨length_of_validate_declare hvalid, hdeclares⟩

/-- A line of `var` that introduces a variable has declared it, since a line that is skipped introduces nothing. -/
theorem declares_of_introduced {line name : String} {given : List Token}
    (hobeys : "var" ∉ m.script.notes.ignored → m.Obeys "var")
    (hword : (wordToken m.registry.types "var").isWord = true)
    (htokens : tokenize m.registry.types (some (resolver m.symbols m.objects)) line =
      .ok (wordToken m.registry.types "var" :: wordToken m.registry.types name :: given))
    (hrun : runLine inv line m = (.ok next, k)) (hnew : m.symbols.locals.has name = false)
    (hintroduced : k.symbols.locals.has name = true) :
    given.length ≤ 1 ∧ m.symbols.declare name (given[0]?.map (·.value)) false = .ok k.symbols := by
  by_cases hlisted : "var" ∈ m.script.notes.ignored
  · rw [runLine_of_ignored inv htokens (isIgnored_wordToken hlisted hword)] at hrun
    cases hrun
    rw [closeLine_symbols, openContext_symbols] at hintroduced
    cases hnew.symm.trans hintroduced
  · exact runLine_declare_eq_ok (hobeys hlisted) htokens hrun

/-- **A declared variable can be read.**  Without extensions and outside of all calls, let a line `var name value`
succeed and introduce a local variable of a plain name, with any text for the value that is not blank.  Then this text
is one token, and a reference to the name gives the value of the token in its stored form. -/
theorem declared_variable_reads_back (hm : m.Reachable) (hcalls : m.symbols.calls = []) {name value : String}
    (hword : IsBareWord name) (hplain : IsPlainName name)
    (hgiven : tokenize m.registry.types (some (resolver m.symbols m.objects)) value ≠ .ok []) (executing : Option Nat)
    (hrun : runLine inv ("var " ++ name ++ " " ++ value) (m.withExecuting executing) = (.ok next, k))
    (hnew : m.symbols.locals.has name = false) (hintroduced : k.symbols.locals.has name = true) :
    ∃ v, tokenize m.registry.types (some (resolver m.symbols m.objects)) value = .ok [v] ∧
      tokenize k.registry.types (some (resolver k.symbols k.objects)) (reference name) =
        .ok [⟨v.value.normalized, v.value.normalized.display⟩] := by
  have hvar : IsBareWord "var" := by decide
  have hline : "var " ++ name ++ " " ++ value = "var" ++ " " ++ (name ++ " " ++ value) := by
    simp [← String.append_assoc]
  obtain ⟨tokens, htokens⟩ := exists_tokens_of_runLine hrun
  obtain ⟨given, hvalue, rfl⟩ := tokens_of_two_words hvar hword (hline ▸ htokens)
  have hobeys : "var" ∉ m.script.notes.ignored → (m.withExecuting executing).Obeys "var" := fun hheeded =>
    (hm.obeys (b := .declare) rfl hheeded).withExecuting executing
  have hvarWord : (wordToken m.registry.types "var").isWord = true := by
    rw [hm.types]
    rfl
  obtain ⟨hlength, hdeclares⟩ :=
    declares_of_introduced (m := m.withExecuting executing) hobeys hvarWord htokens hrun hnew hintroduced
  -- `var` takes no more than one value, and a text that is not blank gives at least one token.
  obtain ⟨v, rfl⟩ : ∃ v, given = [v] := by
    refine List.length_eq_one_iff.mp (Nat.le_antisymm hlength (List.length_pos_iff.mpr ?_))
    rintro rfl
    exact hgiven hvalue
  have hunknown : m.symbols.locals.find? name = none := by simpa [Catalog.has] using hnew
  have hlookup := Symbols.lookup_declared hcalls hunknown hdeclares
  refine ⟨v, hvalue, ?_⟩
  rw [tokenize_reference hword hplain, resolver_of_plain _ _ hplain, hlookup]
  rfl

/-- The name `-` is the mark of locals when it stands before a reference, and a name like others inside of one. -/
theorem declared_variable_reads_back_of_dash :
    let m := started "log a"
    let k := (runLine (invoke 0) ("var " ++ "-" ++ " " ++ "[a|~2]") (m.withExecuting none)).2
    m.Reachable ∧ ∃ v, tokenize m.registry.types (some (resolver m.symbols m.objects)) "[a|~2]" = .ok [v] ∧
      tokenize k.registry.types (some (resolver k.symbols k.objects)) (reference "-") =
        .ok [⟨v.value.normalized, v.value.normalized.display⟩] := by
  intro m k
  have hchecks : (runLine (invoke 0) ("var " ++ "-" ++ " " ++ "[a|~2]") (m.withExecuting none)).1.isOk = true ∧
      m.symbols.locals.has "-" = false ∧ k.symbols.locals.has "-" = true ∧
      (tokenize m.registry.types (some (resolver m.symbols m.objects)) "[a|~2]").toOption.any (·.isEmpty) = false := by
    decide +kernel
  obtain ⟨hok, hnew, hintroduced, hgiven⟩ := hchecks
  obtain ⟨next, hrun⟩ := ends_of_isOk hok
  have hblank : tokenize m.registry.types (some (resolver m.symbols m.objects)) "[a|~2]" ≠ .ok [] := by
    intro heq
    rw [heq] at hgiven
    cases hgiven
  exact ⟨started_reachable _, declared_variable_reads_back (started_reachable _) rfl (by decide) (by decide) hblank none
    hrun hnew hintroduced⟩

/-- A line declares a variable of a bare word, and a reference to the word fails behind it. -/
def DeclaresUnread (m : Machine) (name : String) : Prop :=
  IsBareWord name ∧ m.symbols.locals.has name = false ∧
    ∃ next k, runLine (invoke m.nesting) ("var " ++ name ++ " " ++ "y") (m.withExecuting none) = (.ok next, k) ∧
      k.symbols.locals.has name = true ∧
      ∃ f, tokenize k.registry.types (some (resolver k.symbols k.objects)) (reference name) = .error f

/-- **Names with a mark are declared and cannot be read**: a leading underscore makes a reference look among the
globals, and a dot makes it look for a member. -/
theorem marked_names_not_read : ∃ m : Machine, m.Reachable ∧ m.symbols.calls = [] ∧ m.DeclaresUnread "_x" ∧
    m.DeclaresUnread "a.b" := by
  let m := started "log a"
  have hchecks : ∀ name ∈ ["_x", "a.b"],
      let ended := runLine (invoke m.nesting) ("var " ++ name ++ " " ++ "y") (m.withExecuting none)
      let read := tokenize ended.2.registry.types (some (resolver ended.2.symbols ended.2.objects)) (reference name)
      IsBareWord name ∧ m.symbols.locals.has name = false ∧ ended.1.isOk = true ∧
        ended.2.symbols.locals.has name = true ∧ read.isOk = false := by
    decide +kernel
  have hunread : ∀ name ∈ ["_x", "a.b"], m.DeclaresUnread name := by
    intro name hname
    obtain ⟨hword, hnew, hok, hintroduced, hfails⟩ := hchecks name hname
    obtain ⟨next, hrun⟩ := ends_of_isOk hok
    exact ⟨hword, hnew, next, _, hrun, hintroduced, fails_of_not_isOk hfails⟩
  exact ⟨m, started_reachable _, rfl, hunread "_x" (by simp), hunread "a.b" (by simp)⟩

end Machine

/-! ## Parameters -/

/-- A word that coercion tags with a type of an extension is the text of a value of this type. -/
theorem coerce_of_custom {types : List WordType} {s type : String} (h : (coerce types s).tag = .custom type) :
    coerce types s = .text (.custom type) s := by
  unfold coerce at h ⊢
  split at h
  · cases h
  · unfold coerceSingle at h ⊢
    split_ifs at h ⊢
    · cases h
    · cases h
    · cases h
    · split at h
      · cases h
      · split at h
        · cases h
          rfl
        · cases h

/-- A word whose value has a type of an extension is one token of this value. -/
theorem wordToken_of_custom {types : List WordType} {s type : String} (h : (coerce types s).tag = .custom type) :
    wordToken types s = ⟨.text (.custom type) s, s⟩ := by
  rw [wordToken, wordValue, coerce_of_custom h]
  rfl

/-- A name that no built-in tag has is the name of a custom tag. -/
theorem Tag.ofName_of_not_isBuiltin {name : String} (h : (ofName name).isBuiltin = false) :
    ofName name = .custom name := by
  unfold ofName at h ⊢
  cases hfound : builtin.find? (·.name = name) with
  | none => rfl
  | some tag =>
    have hall : ∀ tag ∈ builtin, tag.isBuiltin = true := by decide
    rw [hfound] at h
    cases h.symm.trans (hall tag (List.mem_of_find?_eq_some hfound))

/-- A text without blanks has none at its ends. -/
theorem Text.trimChars_of_not_blank {cs : List Char} (h : ∀ c ∈ cs, isBlank c = false) : trimChars cs = cs := by
  have hdrop : ∀ ds : List Char, (∀ c ∈ ds, isBlank c = false) → ds.dropWhile isBlank = ds := by
    intro ds hds
    cases ds with
    | nil => rfl
    | cons d ds => exact List.dropWhile_cons_of_neg (by simp [hds d])
  rw [trimChars, dropEndWhile, hdrop cs h, hdrop _ (by simpa using h), List.reverse_reverse]

/-- Can a type of an extension with this name be asked for, behind the colon of a parameter and by the specification of
an argument?  Bars and a leading equals sign have a meaning of their own in a specification. -/
structure IsTypeName (type : String) : Prop where
  bare : ∀ c ∈ type.toList, IsBareChar c
  custom : (Tag.ofName type).isBuiltin = false
  single : '|' ∉ type.toList
  plain : type.toList.head? ≠ some '='

/-- A specification that is the name of a type admits the values of this type. -/
theorem IsTypeName.accepts {type : String} (h : IsTypeName type) {t : Token} (ht : t.value.tag = .custom type) :
    (Spec.ofText type).accepts t = true := by
  unfold Spec.ofText
  rw [trimChars_of_not_blank fun c hc => (h.bare c hc).1]
  split
  · rfl
  · rename_i rest heq
    exact absurd (by rw [heq]; rfl) h.plain
  · simp [Spec.choices, pieces_of_not_mem h.single, Spec.accepts, ht, Tag.name]

/-- A parameter with the name of a type is one word. -/
theorem IsBareWord.typed {p type : String} (hp : IsBareWord p) (htype : IsTypeName type) :
    IsBareWord (p ++ ":" ++ type) := by
  refine ⟨by simp, fun c hc => ?_⟩
  rw [String.toList_append, String.toList_append, List.append_assoc, List.mem_append, List.mem_append] at hc
  rcases hc with hname | hcolon | hwritten
  · exact hp.2 c hname
  · obtain rfl : c = ':' := by simpa using hcolon
    decide
  · exact htype.bare c hwritten

/-- Does a parameter have this name, and admit the values of this type of an extension? -/
def Parameter.Takes (q : Parameter) (name type : String) : Prop :=
  q.name = name ∧ ∀ v : Value, v.tag = .custom type → q.accepts v = true

/-- A declaration leaves the function declared, with its parameters. -/
theorem Symbols.function?_of_declareFunction {s s' : Symbols} {name : String} {params : List Parameter} {line : Nat}
    {d : Declared} (h : s.declareFunction name params line = .ok (d, s')) :
    ∃ f, s'.function? name = some f ∧ f.params = params := by
  obtain ⟨-, ⟨-, rfl⟩ | ⟨old, finish, -, -, -, -, rfl⟩⟩ := declareFunction_eq_ok h
  · exact ⟨_, Option.filter_eq_some_iff.mpr ⟨Catalog.find?_enter_self _ _ _, rfl⟩, rfl⟩
  · exact ⟨_, Option.filter_eq_some_iff.mpr ⟨Catalog.find?_enter_self _ _ _, rfl⟩, rfl⟩

/-- A function with one parameter is called with a value that the parameter takes. -/
theorem Symbols.call_of_takes {s : Symbols} {name p type : String} {f : Function} {q : Parameter} {v : Value}
    (hfunction : s.function? name = some f) (hparams : f.params = [q]) (htakes : q.Takes p type)
    (hv : v.normalized.tag = .custom type) (hdepth : s.calls.length < maxCalls) (line : Nat) :
    s.call name [v] line = .ok (f.start, { s with calls := ⟨name, line, [(p, v.normalized)]⟩ :: s.calls }) := by
  have hcallable : s.callable name = .ok f := by rw [callable, hfunction]
  have hchecked : checkArguments name [q] [v.normalized] = .ok () := by
    rw [checkArguments, if_pos (htakes.2 _ hv)]
    rfl
  have hpushed : ∀ frame, s.pushCall frame = .ok { s with calls := frame :: s.calls } := fun _ => if_pos hdepth
  unfold call
  rw [hcallable]
  show (if _ then _ else _) = _
  rw [hparams, if_neg (by simp), List.map_singleton, hchecked, hpushed]
  simp [htakes.1]
  rfl

/-- Inside of a call a parameter comes first. -/
theorem Symbols.lookup_parameter {s : Symbols} {frame : Frame} {outer : Calls} {p : String} {v : Value}
    (hcalls : s.calls = frame :: outer) (h : frame.param? p = some v) : s.lookup p .nearest = .ok v := by
  have hfound : s.calls.head?.bind (·.param? p) = some v := by rw [hcalls]; exact h
  unfold lookup
  dsimp only
  rw [hfound]

namespace Machine

variable {m k : Machine} {f p type : String}

/-- A parameter written with a type of an extension takes the values of the type under its name. -/
theorem ends_readParameter_of_custom (function : String) (m : Machine) (hcolon : ':' ∉ p.toList)
    (hcustom : (Tag.ofName type).isBuiltin = false) :
    Ends (readParameter function (p ++ ":" ++ type) []) m (fun q k => k = m ∧ q.Takes p type) fun _ _ => True := by
  have hcut : cutString ':' (p ++ ":" ++ type) = some (p, type) := by
    have hchars : (p ++ ":" ++ type).toList = p.toList ++ ':' :: type.toList := by simp
    rw [cutString, hchars, cut_append hcolon]
    simp
  unfold readParameter
  rw [hcut]
  dsimp only
  split
  · exact ends_bind (R := fun _ _ => False) (ends_throw trivial) fun _ _ => False.elim
  · split
    · rename_i hnone
      cases hnone
    · exact ends_pure ⟨rfl, rfl, fun _ _ => rfl⟩
    · rename_i written _ hwritten
      cases hwritten
      refine ends_get (ends_ofExcept_bind (fun tag htag => ends_pure ⟨rfl, rfl, fun v hv => ?_⟩) fun _ _ => trivial)
      have hread : tag = .custom type := by
        unfold parameterTag at htag
        rw [Tag.ofName_of_not_isBuiltin hcustom] at htag
        dsimp only at htag
        split_ifs at htag
        cases htag
        rfl
      simp [Parameter.accepts, hread, hv]

/-- A declaration of a function with one such parameter that succeeds enters it. -/
theorem runFunction_eq_ok_of_custom {i : Invocation} {step : Next} {first second : Token}
    (hargs : i.args = [first, second]) (hsecond : second.text = p ++ ":" ++ type) (hcolon : ':' ∉ p.toList)
    (hcustom : (Tag.ofName type).isBuiltin = false) (h : runFunction i m = (.ok step, k)) :
    ∃ F q, k.symbols.function? first.text = some F ∧ F.params = [q] ∧ q.Takes p type := by
  have hname : i.text 0 = .ok first.text := text_of_getElem? (by rw [hargs]; rfl)
  obtain ⟨name, _, htext, hrest⟩ := bind_eq_ok (show (Act.ofExcept (i.text 0) >>= _) m = _ from h)
  obtain ⟨htext', rfl⟩ := ofExcept_eq_ok htext
  cases hname.symm.trans htext'
  obtain ⟨params, k', hparams, hdeclare⟩ := bind_eq_ok hrest
  rw [hargs] at hparams
  obtain ⟨q, k'', hq, hlast⟩ := bind_eq_ok (show (readParameter first.text second.text [] >>= _) m = _ from hparams)
  rw [hsecond] at hq
  obtain ⟨rfl, htakes⟩ := (ends_readParameter_of_custom _ _ hcolon hcustom).of_ok hq
  cases hlast
  rw [get_bind_apply] at hdeclare
  obtain ⟨reply, k', hreply, hanswer⟩ := bind_eq_ok hdeclare
  obtain ⟨s, hs, rfl⟩ := (ends_onSymbolsReply _ _).of_ok hreply
  have hk : k.symbols = s := by
    cases reply <;> cases hanswer <;> rfl
  obtain ⟨F, hF, hF'⟩ := Symbols.function?_of_declareFunction hs
  rw [hk]
  exact ⟨F, q, hF, hF', htakes⟩

/-- **What a line that declares a function with such a parameter leaves**: the function has the parameter, and its name
is an identifier. -/
theorem parameter_of_declaration {inv : Invoke} {next : Option Nat} (hobeys : m.Obeys "function") (hf : IsBareWord f)
    (hp : IsBareWord p) (hcolon : ':' ∉ p.toList) (htype : IsTypeName type)
    (hrun : runLine inv ("function" ++ " " ++ f ++ " " ++ (p ++ ":" ++ type)) m = (.ok next, k)) :
    (Spec.ofText "identifier").accepts (wordToken m.registry.types f) = true ∧
      ∃ F q, k.symbols.function? f = some F ∧ F.params = [q] ∧ q.Takes p type := by
  obtain ⟨hvalid, step, k', hbuiltin, -, rfl⟩ :=
    runLine_builtin_eq_ok hobeys (tokenize_three_words (by decide) hf (hp.typed htype)) rfl inv rfl hrun
  have hnamed : [wordToken m.registry.types f, wordToken m.registry.types (p ++ ":" ++ type)][0]? = some _ := rfl
  obtain ⟨d, hd, haccepts⟩ := accepts_of_validate hvalid hnamed
  cases hd
  rw [closeLine_symbols, leaveContext_symbols]
  exact ⟨haccepts, runFunction_eq_ok_of_custom rfl rfl hcolon htype.custom hbuiltin⟩

/-- `execute` takes an identifier and any argument. -/
theorem validate_execute {name arg : Token} (hname : (Spec.ofText "identifier").accepts name = true) :
    validate "execute" Builtin.execute.descriptors [name, arg] = .ok () := by
  show ((Descriptor.ofText "function" "identifier").check "execute" name >>= _) = _
  rw [Descriptor.check_identifier hname]
  rfl

/-- A call that is possible is made. -/
theorem runExecute_of_ok {i : Invocation} {start : Nat} {s : Symbols} (hname : i.text 0 = .ok f)
    (hcall : m.symbols.call f ((i.args.drop 1).map (·.value)) m.cursor = .ok (start, s)) :
    runExecute i m = (.ok (.line start), { m with symbols := s }) := by
  have hreply : onSymbolsReply (·.call f ((i.args.drop 1).map (·.value)) m.cursor) m =
      (.ok start, { m with symbols := s }) := onSymbolsReply_of_ok hcall
  show (Act.ofExcept (i.text 0) >>= _) m = _
  rw [hname, bind_of_ok (show Act.ofExcept (Except.ok f) m = (.ok f, m) from rfl), get_bind_apply, bind_of_ok hreply]
  rfl

/-- A line that calls a function with one word which its parameter takes goes on in the function, with the parameter
bound to the value of the word. -/
theorem runLine_execute_of_takes {word : String} {F : Function} {q : Parameter} (hobeys : m.Obeys "execute")
    (hf : IsBareWord f) (hword : IsBareWord word)
    (hname : (Spec.ofText "identifier").accepts (wordToken m.registry.types f) = true)
    (hF : m.symbols.function? f = some F) (hparams : F.params = [q]) (htakes : q.Takes p type)
    (htag : (coerce m.registry.types word).tag = .custom type) (hdepth : m.symbols.calls.length < maxCalls)
    (inv : Invoke) :
    ∃ k, runLine inv ("execute" ++ " " ++ f ++ " " ++ word) m = (.ok (some F.start), k) ∧
      k.symbols = { m.symbols with
        calls := ⟨f, m.cursor, [(p, .text (.custom type) word)]⟩ :: m.symbols.calls } := by
  obtain ⟨cs, hopen, -⟩ := m.openContext_eq_withContexts 0
  have hcall := Symbols.call_of_takes (v := .text (.custom type) word) hF hparams htakes rfl hdepth m.cursor
  have hrun := runExecute_of_ok (m := m.withContexts cs) (s := { m.symbols with
      calls := ⟨f, m.cursor, [(p, .text (.custom type) word)]⟩ :: m.symbols.calls })
    (i := ⟨"execute", [], [wordToken m.registry.types f, wordToken m.registry.types word], m.cursor⟩) rfl
    (by rw [wordToken_of_custom htag]; exact hcall)
  rw [← hopen] at hrun
  exact ⟨_, runLine_builtin_of_ok hobeys (tokenize_three_words (by decide) hf hword) rfl inv rfl
    (validate_execute hname) hrun, rfl⟩

/-- **A typed parameter can be satisfied, and reads back.**  Let a line `function f p:T` succeed, for the name `T` of a
type of an extension and a plain name `p`, and let the function still have its parameter, and the word `f` still its
tag, in some machine that obeys `execute`.  There a call with a bare word that coercion gives the type goes on in the
body, below the bound on calls.  Inside, the reference to the parameter is one token with the text of the word, which an
argument described as `T` admits. -/
theorem typed_parameter_reads_back {m₀ m₁ : Machine} {word : String} {inv₀ : Invoke} {next : Option Nat}
    (hdeclares : m₀.Obeys "function") (hexecutes : m.Obeys "execute") (hf : IsBareWord f) (hp : IsBareWord p)
    (hplain : IsPlainName p) (hcolon : ':' ∉ p.toList) (htype : IsTypeName type)
    (hdeclared : runLine inv₀ ("function" ++ " " ++ f ++ " " ++ (p ++ ":" ++ type)) m₀ = (.ok next, m₁))
    (hparams : (m.symbols.function? f).map (·.params) = (m₁.symbols.function? f).map (·.params))
    (hsame : (wordToken m.registry.types f).value.tag = (wordToken m₀.registry.types f).value.tag) (hword : IsBareWord word)
    (htag : (coerce m.registry.types word).tag = .custom type) (hdepth : m.symbols.calls.length < maxCalls)
    (inv : Invoke) :
    ∃ F k v, m.symbols.function? f = some F ∧
      runLine inv ("execute" ++ " " ++ f ++ " " ++ word) m = (.ok (some F.start), k) ∧
      k.symbols = { m.symbols with
        calls := ⟨f, m.cursor, [(p, .text (.custom type) word)]⟩ :: m.symbols.calls } ∧
      tokenize k.registry.types (some (resolver k.symbols k.objects)) (reference p) = .ok [v] ∧ v.text = word ∧
      (Spec.ofText type).accepts v = true := by
  obtain ⟨hname, F₁, q, hF₁, hq, htakes⟩ :=
    parameter_of_declaration hdeclares hf hp hcolon htype hdeclared
  rw [hF₁] at hparams
  obtain ⟨F, hF, hFparams⟩ := Option.map_eq_some_iff.mp hparams
  have hnamed : (Spec.ofText "identifier").accepts (wordToken m.registry.types f) = true := by
    rw [Spec.accepts_identifier] at hname ⊢
    rw [hsame, hname]
  obtain ⟨k, hrun, hk⟩ := runLine_execute_of_takes hexecutes hf hword hnamed hF (hFparams.trans hq) htakes htag hdepth
    inv
  refine ⟨F, k, ⟨.text (.custom type) word, word⟩, hF, hrun, hk, ?_, rfl, htype.accepts rfl⟩
  have hlookup : k.symbols.lookup p .nearest = .ok (.text (.custom type) word) := by
    rw [hk]
    exact Symbols.lookup_parameter rfl (by simp [Frame.param?])
  rw [tokenize_reference hp hplain, resolver_of_plain _ _ hplain, hlookup]
  rfl

/-- Some types: a literal class, a plain type, and two with a mark in their names. -/
def paintTypes : List WordType :=
  [⟨"direction", true, (· == "north")⟩, ⟨"color", false, (· == "red")⟩, ⟨"=ink", false, (· == "blue")⟩,
    ⟨"ink|", false, (· == "green")⟩]

/-- A machine with these types that has just started a script. -/
def startedPainting (text : String) : Machine :=
  (launch (load text "" (withExtension { id := "paint", types := paintTypes } (ofSettings {} noPatterns))).2).2

/-- A color is bound to the parameter that asks for one. -/
theorem typed_parameter_reads_back_of_color :
    let m₀ := startedPainting "function fill c:color\nend fill\nexecute fill red"
    let m := (m₀.stretch 2).last
    ∃ F k v, m.symbols.function? "fill" = some F ∧
      runLine (invoke 0) ("execute" ++ " " ++ "fill" ++ " " ++ "red") m = (.ok (some F.start), k) ∧
      k.symbols = { m.symbols with
        calls := ⟨"fill", m.cursor, [("c", .text (.custom "color") "red")]⟩ :: m.symbols.calls } ∧
      tokenize k.registry.types (some (resolver k.symbols k.objects)) (reference "c") = .ok [v] ∧ v.text = "red" ∧
      (Spec.ofText "color").accepts v = true := by
  intro m₀ m
  have hobeys : ∀ keyword ∈ ["function", "execute"], ∀ k ∈ [m₀, m],
      (wordToken k.registry.types keyword).isWord = true ∧ keyword ∉ k.script.notes.ignored ∧
        k.registry.isLabel keyword = false ∧ (k.registry.keywords.find? keyword).isNone = true := by
    decide +kernel
  have hchecks :
      let declared := runLine (invoke 0) ("function" ++ " " ++ "fill" ++ " " ++ ("c" ++ ":" ++ "color")) m₀
      declared.1.isOk = true ∧
        (m.symbols.function? "fill").map (·.params) = (declared.2.symbols.function? "fill").map (·.params) ∧
        (wordToken m.registry.types "fill").value.tag = (wordToken m₀.registry.types "fill").value.tag ∧
        (coerce m.registry.types "red").tag = .custom "color" ∧ m.symbols.calls.length < maxCalls := by
    decide +kernel
  obtain ⟨hok, hparams, hsame, htag, hdepth⟩ := hchecks
  obtain ⟨next, hdeclared⟩ := ends_of_isOk hok
  have hcolor : IsBareWord "color" := by decide
  obtain ⟨hword₀, hheeded₀, hlabel₀, hfree₀⟩ := hobeys "function" (by simp) m₀ (by simp)
  obtain ⟨hword, hheeded, hlabel, hfree⟩ := hobeys "execute" (by simp) m (by simp)
  exact typed_parameter_reads_back ⟨hword₀, hheeded₀, hlabel₀, Option.isNone_iff_eq_none.mp hfree₀⟩
    ⟨hword, hheeded, hlabel, Option.isNone_iff_eq_none.mp hfree⟩ (by decide) (by decide) (by decide) (by decide)
    ⟨hcolor.2, by decide, by decide, by decide⟩ hdeclared hparams hsame (by decide) htag hdepth (invoke 0)

/-- A function with one parameter of this type is declared with its body, it may be called, and the word has the
type. -/
def TakesTyped (m : Machine) (f p type word : String) : Prop :=
  (m.symbols.function? f).map (fun F => (F.params, F.ended)) = some ([⟨p, some (.custom type)⟩], true) ∧
    m.symbols.calls.length < maxCalls ∧ (wordToken m.registry.types word).value.tag = .custom type

instance (m : Machine) (f p type word : String) : Decidable (m.TakesTyped f p type word) :=
  inferInstanceAs (Decidable (_ ∧ _ ∧ _))

/-- Does a call with the word succeed, and the parameter then read as the word, which is admitted as one of the type? -/
def readsBack (m : Machine) (f p type word : String) : Bool :=
  match runLine (invoke m.nesting) ("execute" ++ " " ++ f ++ " " ++ word) m with
  | (.ok _, k) =>
    match tokenize k.registry.types (some (resolver k.symbols k.objects)) (reference p) with
    | .ok [v] => v.text == word && (Spec.ofText type).accepts v
    | _ => false
  | _ => false

/-- After some moves a script has declared a function with a typed parameter, and its call with a word of the type does
not read back. -/
def RefusesTyped (text : String) (moves : Nat) (f p type word : String) : Prop :=
  let m := ((startedPainting text).stretch moves).last
  m.TakesTyped f p type word ∧ m.readsBack f p type word = false

instance (text : String) (moves : Nat) (f p type word : String) : Decidable (RefusesTyped text moves f p type word) :=
  inferInstanceAs (Decidable (_ ∧ _))

/-- **Some typed parameters are accepted in vain**: one with a literal class, since a word is stored without its class;
one whose name has a mark; one whose type has a mark in its name; and any in a script that skips calls. -/
theorem typed_parameters_refused :
    RefusesTyped "function f p:direction\nend f\nexecute f north" 2 "f" "p" "direction" "north" ∧
    RefusesTyped "function f _p:color\nend f\nexecute f red" 2 "f" "_p" "color" "red" ∧
    RefusesTyped "function f a.b:color\nend f\nexecute f red" 2 "f" "a.b" "color" "red" ∧
    RefusesTyped "function f p:=ink\nend f\nexecute f blue" 2 "f" "p" "=ink" "blue" ∧
    RefusesTyped "function f p:ink|\nend f\nexecute f green" 2 "f" "p" "ink|" "green" ∧
    RefusesTyped "[ignore execute]\nfunction f p:color\nend f\nexecute f red" 3 "f" "p" "color" "red" := by
  decide +kernel

end Machine

end LineScript
