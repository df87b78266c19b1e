/-
# Lines that close a declaration

The body of a function is passed over up to the line that closes it, and the same line ends the calls of the function
later.  A line is known to close by its texts alone, while a statement asks for more: its keyword must be a word, and
the name behind it an identifier.  So of the lines that close a declaration those return whose two tokens are words, and
those that are quoted fail (`closing_line_returns`).

For the words to be enough, functions must have names that a line can write, and running calls must be calls of declared
functions.  That holds of all machines that are fed with data (`Symbols.Orderly`, `Fed.orderly`).
-/
import LineScript.Proofs.Machine.Keywords
import LineScript.Proofs.Symbols.Invariant

namespace LineScript

open Act

/-! ## Names of functions -/

/-- Is a text a bare word that is an identifier? -/
def IsName (s : String) : Prop := IsBareWord s ∧ (Spec.ofText "identifier").accepts (wordToken [] s) = true

instance (s : String) : Decidable (IsName s) := inferInstanceAs (Decidable (_ ∧ _))

/-- An identifier is no string. -/
theorem IsName.isWord {s : String} (h : IsName s) : (wordToken [] s).isWord = true := by
  have haccepts := h.2
  rw [Spec.accepts_identifier, beq_iff_eq] at haccepts
  rw [Token.isWord, bne_iff_ne]
  intro htag
  rw [htag] at haccepts
  exact absurd haccepts (by decide)

namespace Symbols

/-- The parts of a store belong together, and functions have names. -/
structure Orderly (s : Symbols) : Prop extends s.Linked where
  named : ∀ name f, s.functions.find? name = some f → IsName name

variable {s s' : Symbols} {name : String} {line : Nat}

theorem Orderly.named_enter (h : s.Orderly) (hname : IsName name) (f : Function) :
    ∀ n g, (s.functions.enter name f).find? n = some g → IsName n := by
  intro n g hfound
  by_cases hsame : n = name
  · rw [hsame]
    exact hname
  · rw [Catalog.find?_enter_of_ne _ hsame] at hfound
    exact h.named n g hfound

theorem Orderly.declareFunction (h : s.Orderly) (hname : IsName name) {params : List Parameter} {d : Declared}
    (hok : s.declareFunction name params line = .ok (d, s')) : s'.Orderly where
  toLinked := h.toLinked.declareFunction hok
  named := by
    obtain ⟨-, ⟨-, rfl⟩ | ⟨f, finish, -, -, -, -, rfl⟩⟩ := declareFunction_eq_ok hok
    · exact h.named_enter hname _
    · exact h.named_enter hname _

theorem Orderly.finishDeclaration (h : s.Orderly) (line : Nat) : (s.finishDeclaration line).Orderly where
  toLinked := h.toLinked.finishDeclaration line
  named := by
    unfold Symbols.finishDeclaration
    cases s.declaring with
    | none => exact h.named
    | some name =>
      dsimp only
      cases hfound : s.functions.find? name with
      | none => exact h.named
      | some f => exact h.named_enter (h.named name f hfound) _

theorem Orderly.call (h : s.Orderly) {args : List Value} {start : Nat}
    (hok : s.call name args line = .ok (start, s')) : s'.Orderly where
  toLinked := h.toLinked.call hok
  named := by
    obtain ⟨f, frame, -, -, -, -, -, -, rfl⟩ := call_eq_ok hok
    exact h.named

theorem Orderly.iterate (h : s.Orderly) {items : List Value} {start : Option Nat}
    (hok : s.iterate name items line = .ok (start, s')) : s'.Orderly where
  toLinked := h.toLinked.iterate hok
  named := by
    cases start with
    | none =>
      rw [iterate_eq_ok_none hok]
      exact h.named
    | some start =>
      obtain ⟨-, f, p, first, rest, -, -, -, -, -, -, rfl⟩ := iterate_eq_ok hok
      exact h.named

theorem Orderly.finishCall (h : s.Orderly) {reply : Returned} (hok : s.finishCall name = .ok (reply, s')) :
    s'.Orderly where
  toLinked := h.toLinked.finishCall hok
  named := by
    obtain ⟨f, -, ⟨-, rfl, -⟩ | ⟨frame, outer, -, -, ⟨-, -, rfl⟩ | ⟨it, -, ⟨_, _, -, -, -, rfl⟩ | ⟨-, -, rfl⟩⟩⟩⟩ :=
      finishCall_eq_ok hok
    all_goals exact h.named

theorem Orderly.resetPass (h : s.Orderly) : s.resetPass.Orderly where
  toLinked := h.toLinked.resetPass
  named := by
    intro name f hfound
    have hmap : (s.functions.find? name).map (fun f => { f with declared := false }) = some f := by
      rw [← Catalog.find?_map]
      exact hfound
    obtain ⟨f₀, hfound₀, -⟩ := Option.map_eq_some_iff.mp hmap
    exact h.named name f₀ hfound₀

/-- Without functions and calls a store is in order. -/
theorem orderly_of_nothing (hfunctions : s.functions = {}) (hcalls : s.calls = []) (hiteration : s.iteration = none)
    (hdeclaring : s.declaring = none) : s.Orderly where
  toLinked := linked_of_nothing hfunctions hcalls hiteration hdeclaring
  named := by
    intro name f hfound
    rw [hfunctions] at hfound
    cases hfound

theorem Orderly.withTable (h : s.Orderly) (isGlobal : Bool) (t : Catalog Variable) :
    (s.withTable isGlobal t).Orderly := by
  cases isGlobal <;> exact ⟨⟨h.depth, h.calls, h.iteration, h.items, h.declaring, h.ended⟩, h.named⟩

/-- **Outside of iterations the innermost call can be returned from.** -/
theorem Linked.finishCall_innermost (h : s.Linked) {frame : Frame} {outer : Calls} (hcalls : s.calls = frame :: outer)
    (hiteration : s.iteration = none) :
    s.finishCall frame.function = .ok (.resume (frame.returnLine + 1), { s with calls := outer }) := by
  obtain ⟨f, hfound, hdeclared, -⟩ := h.calls frame (by rw [hcalls]; exact List.mem_cons_self)
  have hfunction : s.function? frame.function = some f := Option.filter_eq_some_iff.mpr ⟨hfound, hdeclared⟩
  have hround : s.endingRound? frame.function (outer.length + 1) = none := by
    rw [endingRound?, hiteration]
    rfl
  unfold Symbols.finishCall
  rw [hfunction, hcalls]
  dsimp only
  rw [if_pos rfl, hround]

end Symbols

namespace Machine

variable {m k : Machine}

/-! ## Statements keep the names in order -/

/-- The names stay in order. -/
def KeepsOrder (m k : Machine) : Prop := m.symbols.Orderly → k.symbols.Orderly

instance overlookingStores_keepsOrder : OverlookingStores KeepsOrder where
  refl _ := id
  trans h h' hm := h' (h hm)
  emit _ _ := id
  contexts _ _ := id
  table _ isGlobal t hm := hm.withTable isGlobal t
  objects _ _ := id
  print _ _ := id
  opened _ _ _ := id

theorem keepsOrder_onSymbolsReply {α : Type} {f : Symbols → Except Fault (α × Symbols)}
    (hf : ∀ {s : Symbols} {x : α} {s'}, s.Orderly → f s = .ok (x, s') → s'.Orderly) :
    Keeps KeepsOrder (onSymbolsReply f) := by
  refine fun m => (ends_onSymbolsReply f m).mono ?_ ?_
  · rintro x _ ⟨s, hs, rfl⟩ hm
    exact hf hm hs
  · rintro _ _ ⟨-, rfl⟩
    exact id

section Keywords

variable {i : Invocation} {depth : Nat}

/-- What is declared as a function has been checked to be an identifier. -/
theorem keepsOrder_runFunction (hargs : ∀ t ∈ i.args, (Spec.ofText "identifier").accepts t = true → IsName t.text)
    (hvalid : validate i.keyword Builtin.function.descriptors i.args = .ok ()) : Keeps KeepsOrder (runFunction i) := by
  refine fun m => ends_ofExcept_bind (fun name hname => ?_) fun _ _ => id
  have hnamed : IsName name := by
    obtain ⟨t, ht, rfl⟩ := Invocation.exists_of_text hname
    obtain ⟨d, hd, haccepts⟩ := accepts_of_validate hvalid ht
    cases hd
    exact hargs t (List.mem_of_getElem? ht) haccepts
  refine keeps_bind (keeps_readParameters _ _ _) (fun params => keeps_get fun m =>
    keeps_bind (keepsOrder_onSymbolsReply fun hm hok => hm.declareFunction hnamed hok) fun reply => ?_) m
  split <;> exact keeps_pure _

/-- **Built-in keywords keep the names in order.** -/
theorem keepsOrder_runBuiltin (b : Builtin)
    (hargs : ∀ t ∈ i.args, (Spec.ofText "identifier").accepts t = true → IsName t.text)
    (hvalid : validate i.keyword b.descriptors i.args = .ok ()) : Keeps KeepsOrder (runBuiltin b i depth) := by
  by_cases hfunction : b = .function
  · subst hfunction
    exact keepsOrder_runFunction hargs hvalid
  cases hsteady : b.isSteady with
  | true => exact keeps_runStoring hsteady hfunction i depth
  | false =>
    cases b with
    | execute =>
      exact keeps_bind (keeps_ofExcept _) fun name => keeps_get fun m =>
        keeps_bind (keepsOrder_onSymbolsReply fun hm hok => hm.call hok) fun _ => keeps_pure _
    | finish =>
      refine keeps_bind (keeps_ofExcept _) fun name =>
        keeps_bind (keepsOrder_onSymbolsReply fun hm hok => hm.finishCall hok) fun reply => ?_
      split <;> exact keeps_pure _
    | iterate =>
      show Keeps KeepsOrder (runIterate i)
      unfold runIterate
      split
      · refine keeps_bind (keeps_ofExcept _) fun name => keeps_get fun m =>
          keeps_bind (keepsOrder_onSymbolsReply fun hm hok => hm.iterate hok) fun reply => ?_
        split <;> exact keeps_pure _
      · exact keeps_throw _
    | pause => exact keeps_get fun _ => keeps_bind (keeps_ofExcept _) fun mode =>
        keeps_bind (keeps_modify fun _ => id) fun _ => keeps_pure _
    | awaitKey => exact keeps_bind (keeps_modify fun _ => id) fun _ => keeps_pure _
    | stop =>
      exact keeps_bind (keeps_modify fun _ _ => Symbols.orderly_of_nothing rfl rfl rfl rfl) fun _ => keeps_pure _
    | restart =>
      refine keeps_bind (keeps_modify fun m hm => ?_) fun _ => keeps_pure _
      split_ifs
      · exact hm.resetPass
      · exact Symbols.orderly_of_nothing rfl rfl rfl rfl
    | _ => cases hsteady

end Keywords

/-- **The identifiers of a line are names**, since data is never an identifier. -/
theorem HoldsData.isName_of_tokenize (hm : m.HoldsData) {line : String} {tokens : List Token}
    (h : tokenize [] (some (resolver m.symbols m.objects)) line = .ok tokens) :
    ∀ t ∈ tokens, (Spec.ofText "identifier").accepts t = true → IsName t.text := by
  obtain ⟨lexemes, hscan, hfound⟩ := exists_lexemes_of_tokenize h
  intro t ht haccepts
  obtain ⟨l, hl, htoken⟩ := mem_of_mapM hfound ht
  cases l with
  | bare word =>
    cases htoken
    exact ⟨isBareWord_of_mem_scan hscan hl, haccepts⟩
  | quoted text =>
    cases htoken
    rw [Spec.accepts_identifier] at haccepts
    exact absurd haccepts (by simp [Value.tag, Tag.name])
  | group inner =>
    cases htoken
    rw [Spec.accepts_identifier] at haccepts
    exact absurd haccepts (by simp [Value.tag, Tag.name])
  | reference raw reach =>
    obtain ⟨v, hv, hlast⟩ := Symbols.bind_eq_ok htoken
    cases hlast
    have hdata : Token.IsData ⟨v, v.display⟩ := ⟨hm.of_resolver hv, rfl⟩
    cases haccepts.symm.trans (hdata.rejected (by decide))

/-- Lines keep the names in order. -/
theorem Plain.runLine_orderly (hplain : m.Plain) (htypes : m.registry.types = []) (hdata : m.HoldsData)
    (hm : m.symbols.Orderly) (inv : Invoke) (line : String) :
    Ends (Machine.runLine inv line) m (fun _ k => k.symbols.Orderly) fun _ k => k.symbols.Orderly := by
  refine ends_get (ends_ofExcept_bind (fun tokens htokens => ?_) fun _ _ => hm)
  rw [htypes] at htokens
  have hrow := hplain.keeps_runNested (R := KeepsOrder)
    (P := fun t => (Spec.ofText "identifier").accepts t = true → IsName t.text)
    (fun b i depth hargs hvalid => keepsOrder_runBuiltin b hargs hvalid) inv tokens.length
    (hdata.isName_of_tokenize htokens) 0
  exact ends_finally (hrow.mono (fun _ k hk => hk hm) fun _ k hk => hk hm)

theorem storeInvariant_orderly : StoreInvariant fun m => m.HoldsData ∧ m.symbols.Orderly where
  stores hm hsymbols hobjects := ⟨storeInvariant_holdsData.stores hm.1 hsymbols hobjects, hsymbols ▸ hm.2⟩
  line inv line hplain htypes hm :=
    ((storeInvariant_holdsData.line inv line hplain htypes hm.1).and
      (hplain.runLine_orderly htypes hm.1 hm.2 inv line))
  finish line hm := ⟨storeInvariant_holdsData.finish line hm.1, hm.2.finishDeclaration line⟩
  provide name _ hm hvalue := ⟨storeInvariant_holdsData.provide name hm.1 hvalue, hm.2.withTable true _⟩
  hardReset hm := ⟨storeInvariant_holdsData.hardReset hm.1, Symbols.orderly_of_nothing rfl rfl rfl rfl⟩

/-- **In machines that are fed with data functions have names**, and calls are calls of declared functions. -/
theorem Fed.orderly (h : m.Fed) : m.symbols.Orderly :=
  (storeInvariant_orderly.fed (fun s search => ⟨holdsData_ofSettings s search, Symbols.orderly_of_nothing rfl rfl rfl rfl⟩) h).2

/-! ## Lines that close -/

/-- The machine with other calls running. -/
def withCalls (calls : Calls) (m : Machine) : Machine := { m with symbols := { m.symbols with calls := calls } }

/-- A line that closes a declaration consists of two tokens, `end` and the name of the function. -/
theorem tokens_of_closes {name line : String} (h : m.closes name line = true) :
    ∃ keyword function, tokenizeInert m.registry.types line = .ok [keyword, function] ∧ keyword.text = "end" ∧
      function.text = name := by
  unfold closes at h
  split at h
  · rename_i keyword function htokens
    rw [Bool.and_eq_true, beq_iff_eq, beq_iff_eq] at h
    exact ⟨keyword, function, htokens, h⟩
  · cases h

/-- What a line can be that closes the declaration of a running function: both its tokens are words or strings, with or
without a store to read from. -/
theorem Fed.reads_closing (hm : m.Fed) {frame : Frame} (hcalled : frame ∈ m.symbols.calls) {line : String}
    (h : m.closes frame.function line = true) :
    IsName frame.function ∧ ∃ keyword name, (∀ resolve, tokenize [] resolve line = .ok [keyword, name]) ∧
      (keyword = wordToken [] "end" ∧ firstWord? line = some "end" ∨ keyword = ⟨.string "end", "end"⟩) ∧
      (name = wordToken [] frame.function ∨ name = ⟨.string frame.function, frame.function⟩) := by
  obtain ⟨F, hF, -⟩ := hm.orderly.calls frame hcalled
  have hnamed := hm.orderly.named _ _ hF
  obtain ⟨keyword, name, hinert, hend, hfunction⟩ := tokens_of_closes h
  rw [hm.reachable.types] at hinert
  obtain ⟨l₁, l₂, hscan, h₁, h₂⟩ := exists_two_lexemes hinert
  -- A token whose text is a bare word is no group and no reference, so it is the same with a store to read from.
  obtain ⟨hread₁, hkeyword⟩ := token_of_bare_text h₁ (by rw [hend]; decide)
  obtain ⟨hread₂, hname⟩ := token_of_bare_text h₂ (by rw [hfunction]; exact hnamed.1)
  rw [hend] at hkeyword
  rw [hfunction] at hname
  refine ⟨hnamed, keyword, name, fun resolve => tokenize_of_two_lexemes hscan (hread₁ resolve) (hread₂ resolve), ?_, ?_⟩
  · rcases hkeyword with ⟨rfl, hword⟩ | hquoted
    · exact Or.inl ⟨hword, by rw [firstWord?, hscan]; rfl⟩
    · exact Or.inr hquoted
  · exact hname.imp And.right id

/-- A return that is possible is made. -/
theorem runEnd_of_ok {i : Invocation} {name : String} {line : Nat} {s : Symbols} (hname : i.text 0 = .ok name)
    (hfinish : m.symbols.finishCall name = .ok (.resume line, s)) :
    runEnd i m = (.ok (.line line), { m with symbols := s }) := by
  have hreply : onSymbolsReply (·.finishCall name) m = (.ok (.resume line), { m with symbols := s }) :=
    onSymbolsReply_of_ok hfinish
  show (Act.ofExcept (i.text 0) >>= _) m = _
  rw [hname, bind_of_ok (show Act.ofExcept (Except.ok name) m = (.ok name, m) from rfl), bind_of_ok hreply]
  rfl

/-- `end` takes an identifier, and nothing else. -/
theorem validate_end (name : Token) (h : (Spec.ofText "identifier").accepts name = true) :
    validate "end" Builtin.finish.descriptors [name] = .ok () := by
  show ((Descriptor.ofText "function" "identifier").check "end" name >>= _) = _
  rw [Descriptor.check_identifier h]
  rfl

/-- A name in quotes is rejected. -/
theorem validate_end_of_string (text : String) :
    ∃ f, validate "end" Builtin.finish.descriptors [⟨.string text, text⟩] = .error f := by
  cases hvalid : validate "end" Builtin.finish.descriptors [⟨.string text, text⟩] with
  | error f => exact ⟨f, rfl⟩
  | ok _ =>
    have harg : [(⟨.string text, text⟩ : Token)][0]? = some ⟨.string text, text⟩ := rfl
    obtain ⟨d, hd, haccepts⟩ := accepts_of_validate hvalid harg
    cases hd
    cases (Spec.accepts_identifier _).symm.trans haccepts

/-- A line of the words `end` and the name of the innermost call, outside of iterations, returns from the call. -/
theorem runLine_end_of_words {line : String} {frame : Frame} {outer : Calls} (hobeys : m.Obeys "end")
    (hlinked : m.symbols.Linked) (hcalls : m.symbols.calls = frame :: outer) (hiteration : m.symbols.iteration = none)
    (hname : (Spec.ofText "identifier").accepts (wordToken m.registry.types frame.function) = true)
    (htokens : tokenize m.registry.types (some (resolver m.symbols m.objects)) line =
      .ok [wordToken m.registry.types "end", wordToken m.registry.types frame.function]) (inv : Invoke) :
    ∃ cs, runLine inv line m = (.ok (some (frame.returnLine + 1)), (m.withCalls outer).withContexts cs) := by
  obtain ⟨opened, hopen, -⟩ := m.openContext_eq_withContexts 0
  have hrun : runEnd ⟨"end", [], [wordToken m.registry.types frame.function], m.cursor⟩ (m.openContext 0) =
      (.ok (.line (frame.returnLine + 1)), (m.withCalls outer).withContexts opened) := by
    rw [hopen]
    exact runEnd_of_ok (text_of_getElem? rfl) (hlinked.finishCall_innermost hcalls hiteration)
  obtain ⟨cs, hleft⟩ := closeLine_leaveContext "end" 0 ((m.withCalls outer).withContexts opened)
  exact ⟨cs, by rw [runLine_builtin_of_ok hobeys htokens rfl inv rfl (validate_end _ hname) hrun, hleft]; rfl⟩

/-- A line of two tokens that are `end` and the name, but not both words, fails, and changes no name. -/
theorem runLine_end_of_string {line : String} (function : String) {keyword name : Token} (hobeys : m.Obeys "end")
    (htokens : tokenize m.registry.types (some (resolver m.symbols m.objects)) line = .ok [keyword, name])
    (hkeyword : keyword = wordToken m.registry.types "end" ∨ keyword = ⟨.string "end", "end"⟩)
    (hname : name.isWord = true ∨ name = ⟨.string function, function⟩)
    (hnot : ¬ (keyword.isWord = true ∧ name.isWord = true)) (inv : Invoke) :
    ∃ f k, runLine inv line m = (.error f, k) ∧ k.symbols = m.symbols := by
  rcases hkeyword with rfl | rfl
  · -- The name is the string, which the description of the argument rejects.
    rcases hname with hword | rfl
    · exact absurd ⟨hobeys.word, hword⟩ hnot
    · obtain ⟨f, hinvalid⟩ := validate_end_of_string function
      exact ⟨f, _, runLine_builtin_of_invalid hobeys htokens rfl inv hinvalid, by simp⟩
  · exact ⟨_, _, runLine_of_string inv htokens rfl, by simp⟩

/-- **The lines that close a declaration and return.**  Let a machine without extensions that is fed with data be inside
of a call, outside of iterations, with a script that does not skip `end`, and let a line close the declaration of the
called function.  The line consists of two tokens with the texts `end` and the name.

* When both are words, the line returns: nothing but the call and contexts is gone, and the run goes on behind the
  line of the call.
* When one of them is a string, the line fails, and the call stays. -/
theorem closing_line_returns (hm : m.Fed) (hheeded : "end" ∉ m.script.notes.ignored) {frame : Frame} {outer : Calls}
    (hcalls : m.symbols.calls = frame :: outer) (hiteration : m.symbols.iteration = none) {line : String}
    (hcloses : m.closes frame.function line = true) :
    ∃ keyword name, tokenizeInert [] line = .ok [keyword, name] ∧ keyword.text = "end" ∧ name.text = frame.function ∧
      (keyword.isWord = true ∧ name.isWord = true →
        (∀ (inv : Invoke) (executing : Option Nat), ∃ cs, runLine inv line (m.withExecuting executing) =
          (.ok (some (frame.returnLine + 1)), ((m.withExecuting executing).withCalls outer).withContexts cs)) ∧
        (m.mode = .running → m.symbols.declaring = none → m.script.lines[m.cursor]? = some line → ∃ cs,
          m.advance = some ⟨[m.cursor], [], { (m.withCalls outer).withContexts cs with
            executing := some m.cursor, cursor := frame.returnLine + 1 }⟩)) ∧
      (¬ (keyword.isWord = true ∧ name.isWord = true) → ∀ (inv : Invoke) (executing : Option Nat), ∃ f k,
        runLine inv line (m.withExecuting executing) = (.error f, k) ∧ k.symbols = m.symbols) := by
  obtain ⟨hnamed, keyword, name, htokens, hkeyword, hname⟩ :=
    hm.reads_closing (by rw [hcalls]; exact List.mem_cons_self) hcloses
  have hobeys : ∀ executing, (m.withExecuting executing).Obeys "end" :=
    (hm.reachable.obeys (b := .finish) rfl hheeded).withExecuting
  have htypes : ∀ executing, (m.withExecuting executing).registry.types = [] := fun _ => hm.reachable.types
  refine ⟨keyword, name, htokens none, ?_, ?_, ?_, ?_⟩
  · rcases hkeyword with ⟨rfl, -⟩ | rfl <;> rfl
  · rcases hname with rfl | rfl <;> rfl
  · rintro ⟨hword, hword'⟩
    obtain ⟨rfl, hfirst⟩ := hkeyword.resolve_right (by rintro rfl; cases hword)
    obtain rfl := hname.resolve_right (by rintro rfl; cases hword')
    -- As a statement the line is `end` with the name of the innermost call, which outside of iterations ends it.
    have hreturns : ∀ (inv : Invoke) (executing : Option Nat), ∃ cs, runLine inv line (m.withExecuting executing) =
        (.ok (some (frame.returnLine + 1)), ((m.withExecuting executing).withCalls outer).withContexts cs) := by
      intro inv executing
      refine runLine_end_of_words (hobeys executing) hm.orderly.toLinked hcalls hiteration ?_ ?_ inv
      · rw [htypes]
        exact hnamed.2
      · rw [htypes, htokens]
    refine ⟨hreturns, fun hmode hdeclaring hcursor => ?_⟩
    have hcounts : m.counts line = true := by
      rw [counts, not_passive_of_firstWord hfirst, hdeclaring]
      rfl
    obtain ⟨cs, hrun⟩ := hreturns (invoke m.nesting) (some m.cursor)
    exact ⟨cs, advance_of_runLine hmode hcursor hcounts hrun⟩
  · intro hnot inv executing
    refine runLine_end_of_string frame.function (hobeys executing) (by rw [htypes]; exact htokens _) ?_ ?_ hnot inv
    · rw [htypes]
      exact hkeyword.imp And.left id
    · exact hname.imp (fun h => by rw [h]; exact hnamed.isWord) id

/-- An empty body is closed by the line that returns from it. -/
theorem closing_line_returns_of_empty_body :
    let m := ((started "function f\nend f\nexecute f\nlog done").stretch 3).last
    m.Fed ∧ m.closes "f" "end f" = true ∧ ∃ outer cs, m.symbols.calls = ⟨"f", 2, []⟩ :: outer ∧
      m.advance = some ⟨[m.cursor], [], { (m.withCalls outer).withContexts cs with
        executing := some m.cursor, cursor := 3 }⟩ := by
  intro m
  have hfed : m.Fed := (ReachedBy.started _ rfl).stretch 3
  have hcalls : m.symbols.calls = [⟨"f", 2, []⟩] := rfl
  have hchecks : "end" ∉ m.script.notes.ignored ∧ m.symbols.iteration.isNone = true ∧ m.closes "f" "end f" = true ∧
      m.mode = .running ∧ m.symbols.declaring = none ∧ m.script.lines[m.cursor]? = some "end f" := by
    decide +kernel
  obtain ⟨hheeded, hiteration, hcloses, hmode, hdeclaring, hcursor⟩ := hchecks
  obtain ⟨keyword, name, htokens, -, -, hreturns, -⟩ :=
    closing_line_returns hfed hheeded hcalls (Option.isNone_iff_eq_none.mp hiteration) hcloses
  have hwords : tokenizeInert [] "end f" = .ok [wordToken [] "end", wordToken [] "f"] := rfl
  cases hwords.symm.trans htokens
  obtain ⟨cs, hmove⟩ := (hreturns ⟨rfl, rfl⟩).2 hmode hdeclaring hcursor
  exact ⟨hfed, hcloses, [], cs, hcalls, hmove⟩

/-- After three moves a script without extensions is in a call of `f`, at the line that has closed the declaration, and
the line fails while the call stays. -/
def StaysInside (text line : String) : Prop :=
  let m := ((started text).stretch 3).last
  "end" ∉ m.script.notes.ignored ∧ m.symbols.iteration.isNone = true ∧ m.symbols.calls.map (·.function) = ["f"] ∧
    m.script.lines[m.cursor]? = some line ∧ m.closes "f" line = true ∧
    m.advance.any (fun t => !t.faults.isEmpty && t.last.symbols.calls.length == 1) = true

instance (text line : String) : Decidable (StaysInside text line) :=
  inferInstanceAs (Decidable (_ ∧ _ ∧ _ ∧ _ ∧ _ ∧ _))

/-- **A line in quotes closes a declaration and does not return.** -/
theorem quoted_lines_close_only :
    StaysInside "function f\n\"end\" f\nexecute f\nlog done" "\"end\" f" ∧
    StaysInside "function f\nend \"f\"\nexecute f\nlog done" "end \"f\"" := by
  decide +kernel

end Machine

end LineScript
