/-
# Machines hold data

A word in a line may name a keyword, a variable or a function.  What a machine holds is never a word but data: numbers,
truth values, plain texts, objects, offsets, and groups of these (`Value.isData`).

* `storesData_of_tokenize`: what a line writes down or looks up is data in its stored form;
* `Plain.keeps_runNested`: what the built-in keywords keep on some tokens, rows of such tokens keep;
* `keepsData_runBuiltin`: the built-in keywords add nothing but data.

* `StoreInvariant.fed`: what lines keep, and all that a host does around them, holds of machines fed with data.

Main statement: a machine that a host feeds with data holds nothing but data (`Fed.holdsData`).
-/
import LineScript.Proofs.Machine.Hosting
import LineScript.Proofs.Machine.Faults
import LineScript.Proofs.Machine.Turn

namespace LineScript

open Act

/-! ## Values -/

namespace Value

mutual

/-- Is a value data?  Words are not, and a text is when it is a plain one. -/
def isData : Value → Bool
  | word _ _ => false
  | text t _ => t == .string
  | group items => areData items
  | _ => true

/-- Are all of some values data? -/
def areData : List Value → Bool
  | [] => true
  | v :: rest => v.isData && areData rest

end

theorem areData_eq_all (items : List Value) : areData items = items.all isData := by
  induction items with
  | nil => rfl
  | cons v rest ih => rw [areData, List.all_cons, ih]

/-- What stands in the groups of data is data. -/
theorem isData_of_part {u v : Value} (hpart : u.Part v) (h : v.isData = true) : u.isData = true := by
  induction hpart with
  | self => exact h
  | element hmem _ ih =>
    rw [isData, areData_eq_all, List.all_eq_true] at h
    exact ih (h _ hmem)

mutual

/-- Data is stored as it is. -/
theorem normalized_of_isData : (v : Value) → v.isData = true → v.normalized = v
  | number _, _ => by simp [normalized]
  | text t s, h => by
    obtain rfl : t = .string := by simpa [isData] using h
    exact normalized_string s
  | word _ _, h => by simp [isData] at h
  | boolean _, _ => by simp [normalized]
  | group items, h => by
    rw [isData] at h
    rw [normalized_group, normalizedAll_of_areData items h]
  | object _, _ => by simp [normalized]
  | relpos _, _ => by simp [normalized]

theorem normalizedAll_of_areData : (items : List Value) → areData items = true → normalizedAll items = items
  | [], _ => by simp [normalizedAll]
  | v :: rest, h => by
    rw [areData, Bool.and_eq_true] at h
    rw [normalizedAll, normalized_of_isData v h.1, normalizedAll_of_areData rest h.2]

end

/-- The stored form of a value is data. -/
def StoresData (v : Value) : Prop := v.normalized.isData = true

theorem StoresData.of_isData {v : Value} (h : v.isData = true) : v.StoresData := by
  rw [StoresData, normalized_of_isData v h]
  exact h

theorem storesData_string (s : String) : (string s).StoresData := .of_isData rfl

/-- A group stores data when all its elements do. -/
theorem storesData_group {items : List Value} :
    (group items).StoresData ↔ ∀ v ∈ items, v.StoresData := by
  rw [StoresData, normalized_group, isData, areData_eq_all, normalizedAll_eq_map, List.all_map, List.all_eq_true]
  exact Iff.rfl

end Value

open Value

theorem storesData_coerceSingle (s : String) : (coerceSingle [] s).StoresData := by
  unfold coerceSingle
  split_ifs
  · exact .of_isData rfl
  · exact .of_isData rfl
  · exact .of_isData rfl
  · split
    · exact .of_isData rfl
    · split
      · rename_i t ht
        cases ht
      · rw [StoresData, normalized_word]
        rfl

/-- Without types of extensions whatever is written down stores data: a word is stored as a plain text. -/
theorem storesData_wordValue (s : String) : (wordValue [] s).StoresData := by
  rw [StoresData, wordValue, classify_normalized]
  unfold coerce
  split
  · refine storesData_group.mpr fun v hv => ?_
    obtain ⟨item, -, rfl⟩ := List.mem_map.mp hv
    exact storesData_coerceSingle item
  · exact storesData_coerceSingle s

namespace Machine

/-! ## Machines -/

variable {α : Type} {m k : Machine}

/-- A machine that holds nothing but data. -/
structure HoldsData (m : Machine) : Prop where
  symbols : ∀ v, m.symbols.Holds v → v.isData = true
  objects : ∀ v, m.objects.Holds v → v.isData = true

/-- Nothing but data is added to what a machine holds. -/
def KeepsData (m k : Machine) : Prop := m.HoldsData → k.HoldsData

instance overlooking_keepsData : Overlooking KeepsData where
  refl _ := id
  trans h h' hm := h' (h hm)
  emit _ _ hm := ⟨hm.symbols, hm.objects⟩
  contexts _ _ hm := ⟨hm.symbols, hm.objects⟩

/-- What has to be shown of a step, from a machine that holds nothing but data. -/
theorem keepsData_iff {a : Act α} :
    Keeps KeepsData a ↔ ∀ m, m.HoldsData → Ends a m (fun _ k => k.HoldsData) fun _ k => k.HoldsData := by
  constructor
  · exact fun h m hm => (h m).mono (fun _ _ hk => hk hm) fun _ _ hk => hk hm
  · intro h m
    by_cases hm : m.HoldsData
    · exact (h m hm).mono (fun _ _ hk _ => hk) fun _ _ hk _ => hk
    · exact (ends_of_ok (fun _ _ _ => trivial)).mono (fun _ _ _ hk => absurd hk hm) fun _ _ _ hk => absurd hk hm

/-- What a reference gives is data. -/
theorem HoldsData.of_resolver (hm : m.HoldsData) {r : Reference} {v : Value}
    (h : resolver m.symbols m.objects r = .ok v) : v.isData = true := by
  obtain ⟨u, hheld, hpart⟩ := part_of_resolver h
  exact isData_of_part hpart (hheld.elim (hm.symbols u) (hm.objects u))

/-- **What a line writes down or looks up stores data.** -/
theorem HoldsData.storesData_of_tokenize (hm : m.HoldsData) {line : String} {tokens : List Token}
    (h : tokenize [] (some (resolver m.symbols m.objects)) line = .ok tokens) :
    ∀ t ∈ tokens, t.value.StoresData := by
  obtain ⟨found, hfound, hlast⟩ := Symbols.bind_eq_ok h
  split at hlast
  · cases hlast
  · cases hlast
    intro t ht
    obtain ⟨l, -, hl⟩ := mem_of_mapM hfound ht
    cases l with
    | bare word =>
      cases hl
      exact storesData_wordValue _
    | quoted text =>
      cases hl
      exact storesData_string _
    | group inner =>
      cases hl
      refine storesData_group.mpr fun v hv => ?_
      obtain ⟨item, -, rfl⟩ := List.mem_map.mp hv
      exact storesData_wordValue item
    | reference raw reach =>
      obtain ⟨v, hv, hlast⟩ := Symbols.bind_eq_ok hl
      cases hlast
      exact .of_isData (hm.of_resolver hv)

/-! ## Operations on the stores -/

/-- An operation on names that is given what stores data. -/
theorem HoldsData.perform (hm : m.HoldsData) {c : Symbols.Command} (hc : ∀ v ∈ c.values, v.StoresData) :
    HoldsData { m with symbols := (m.symbols.perform c).2 } where
  symbols := by
    intro v hv
    rcases Symbols.Holds.of_perform hv with hold | ⟨u, hu, rfl⟩
    · exact hm.symbols v hold
    · exact hc u hu
  objects := hm.objects

theorem keepsData_onSymbols (c : Symbols.Command) (hc : ∀ v ∈ c.values, v.StoresData)
    {f : Symbols → Except Fault Symbols} (hf : ∀ s s', f s = .ok s' → (s.perform c).2 = s') :
    Keeps KeepsData (onSymbols f) := by
  refine fun m => (ends_onSymbols f m).mono ?_ ?_
  · rintro _ _ ⟨s, hs, rfl⟩ hm
    obtain rfl := hf _ s hs
    exact hm.perform hc
  · rintro _ _ ⟨-, rfl⟩ hm
    exact hm

theorem keepsData_onSymbolsReply (c : Symbols.Command) (hc : ∀ v ∈ c.values, v.StoresData)
    {f : Symbols → Except Fault (α × Symbols)} (hf : ∀ s x s', f s = .ok (x, s') → (s.perform c).2 = s') :
    Keeps KeepsData (onSymbolsReply f) := by
  refine fun m => (ends_onSymbolsReply f m).mono ?_ ?_
  · rintro x _ ⟨s, hs, rfl⟩ hm
    obtain rfl := hf _ x s hs
    exact hm.perform hc
  · rintro _ _ ⟨-, rfl⟩ hm
    exact hm

theorem keepsData_onObjects {f : Objects → Except Fault Objects}
    (hf : ∀ {o o' v}, f o = .ok o' → o'.Holds v → o.Holds v ∨ v.isData = true) :
    Keeps KeepsData (onObjects f) := by
  refine fun m => (ends_onObjects f m).mono ?_ ?_
  · rintro _ _ ⟨o, ho, rfl⟩ hm
    exact ⟨hm.symbols, fun v hv => (hf ho hv).elim (hm.objects v) id⟩
  · rintro _ _ ⟨-, rfl⟩ hm
    exact hm

theorem keepsData_declare (name : String) {initial : Option Value} (isGlobal : Bool)
    (hv : ∀ v ∈ initial, v.StoresData) : Keeps KeepsData (onSymbols (·.declare name initial isGlobal)) :=
  keepsData_onSymbols (.declare name initial isGlobal) (fun v h => hv v (Option.mem_toList.mp h))
    fun _ _ hs => by rw [Symbols.perform, hs]; rfl

theorem keepsData_assign (name : String) {value : Value} (isGlobal : Bool) (hv : value.StoresData) :
    Keeps KeepsData (onSymbols (·.assign name value isGlobal)) :=
  keepsData_onSymbols (.assign name value isGlobal) (fun _ h => List.mem_singleton.mp h ▸ hv)
    fun _ _ hs => by rw [Symbols.perform, hs]; rfl

theorem keepsData_setProperty (id : Nat) (name : String) {value : Value} (hv : value.StoresData) :
    Keeps KeepsData (onObjects (·.setProperty id name value)) :=
  keepsData_onObjects fun ho h => (h.of_setProperty ho).imp_right fun hnew => by
    rw [← hnew]
    exact hv

theorem HoldsData.hardReset (hm : m.HoldsData) : m.hardReset.HoldsData where
  symbols := by
    intro v hv
    obtain ⟨name, var, hmem, -, hvalue⟩ := Symbols.Holds.of_clear hv
    exact hm.symbols v (.variable true hmem hvalue)
  objects := by
    rintro v (⟨he, -⟩ | ⟨hobject, -⟩)
    · cases he
    · simp [Machine.hardReset, rewind] at hobject

theorem HoldsData.softReset (hm : m.HoldsData) : m.softReset.HoldsData :=
  ⟨fun v hv => hm.symbols v (Symbols.Holds.of_resetPass hv), fun v hv => hm.objects v (Objects.Holds.of_resetPass hv)⟩

/-! ## Keywords -/

section Keywords

variable {i : Invocation} {depth : Nat}

theorem storesData_of_value? (hargs : ∀ t ∈ i.args, t.value.StoresData) {position : Nat} :
    ∀ v ∈ i.value? position, v.StoresData := by
  intro v hv
  obtain ⟨t, ht, rfl⟩ := Invocation.exists_of_value? hv
  exact hargs t ht

/-- What is read from an argument is used as what stores data. -/
theorem keepsData_value (hargs : ∀ t ∈ i.args, t.value.StoresData) (position : Nat) {f : Value → Act α}
    (hf : ∀ v, v.StoresData → Keeps KeepsData (f v)) :
    Keeps KeepsData (Act.ofExcept (i.value position) >>= f) := by
  refine fun m => ends_ofExcept_bind (fun v hv => ?_) fun _ _ => id
  obtain ⟨t, ht, rfl⟩ := Invocation.exists_of_value hv
  exact hf _ (hargs t ht) m

theorem keepsData_runDeclare (hargs : ∀ t ∈ i.args, t.value.StoresData) : Keeps KeepsData (runDeclare i) :=
  keeps_bind (keeps_ofExcept _) fun name =>
    keeps_bind (keepsData_declare name _ (storesData_of_value? hargs)) fun _ => keeps_pure _

theorem keepsData_runAssign (hargs : ∀ t ∈ i.args, t.value.StoresData) : Keeps KeepsData (runAssign i) := by
  refine keeps_bind (keeps_ofExcept _) fun name => keepsData_value hargs 1 fun value hvalue => ?_
  dsimp only
  split
  · exact keeps_bind (keepsData_assign _ _ hvalue) fun _ => keeps_pure _
  · refine keeps_bind (keeps_lookup _ _) fun target => ?_
    split
    · exact keeps_throw_bind _ _
    · exact keeps_bind (keepsData_setProperty _ _ hvalue) fun _ => keeps_pure _

theorem keepsData_runArithmetic (op : Arithmetic) : Keeps KeepsData (runArithmetic op i) := by
  refine keeps_bind (keeps_ofExcept _) fun name => ?_
  split
  · refine keeps_bind (keeps_lookup _ _) fun held => ?_
    split
    · exact keeps_bind (keeps_ofExcept _) fun _ =>
        keeps_bind (keepsData_assign _ _ (.of_isData rfl)) fun _ => keeps_pure _
    · exact keeps_throw _
  · exact keeps_throw _

theorem keepsData_runJoin : Keeps KeepsData (runJoin i) :=
  keeps_bind (keeps_ofExcept _) fun _ => keeps_get fun _ => keeps_bind (keeps_ofExcept _) fun _ =>
    keeps_bind (keepsData_assign _ _ (storesData_string _)) fun _ => keeps_pure _

/-- A copy is data since what it is a copy of is. -/
theorem keepsData_copyName (name : String) (toGlobal : Bool) : Keeps KeepsData (copyName name toGlobal) := by
  refine keepsData_iff.mpr fun m hm => ?_
  have hlookup : ∀ reach, Ends (lookup name reach) m (fun v k => v.StoresData ∧ k = m) fun _ k => k.HoldsData := by
    refine fun reach => (ends_lookup name reach m).mono ?_ ?_
    · rintro v _ ⟨hv, rfl⟩
      exact ⟨.of_isData (hm.symbols v (Symbols.holds_of_lookup hv)), rfl⟩
    · rintro _ _ ⟨-, rfl⟩
      exact hm
  refine ends_bind (hlookup _) ?_
  rintro value _ ⟨hvalue, rfl⟩
  refine keepsData_iff.mp (keeps_get fun k => ?_) _ hm
  dsimp only
  split
  · exact keeps_bind (keepsData_declare _ _ (by rintro v ⟨⟩)) fun _ => keepsData_assign _ _ hvalue
  · exact keepsData_assign _ _ hvalue

theorem keepsData_runExport : Keeps KeepsData (runExport i) := by
  refine keeps_bind (keeps_ofExcept _) fun name => keeps_get fun m => ?_
  dsimp only
  split
  · exact keeps_bind (keepsData_copyName _ _) fun _ => keeps_pure _
  · exact keeps_bind (keeps_disallow _) fun _ => keeps_pure _

theorem keepsData_runImport : Keeps KeepsData (runImport i) := by
  refine keeps_bind (keeps_ofExcept _) fun name => keeps_get fun m => ?_
  dsimp only
  split
  · exact keeps_bind (keepsData_copyName _ _) fun _ => keeps_pure _
  · exact keeps_bind (keeps_disallow _) fun _ => keeps_pure _

theorem keepsData_addProperty (hargs : ∀ t ∈ i.args, t.value.StoresData) : Keeps KeepsData (addProperty i) := by
  refine keeps_bind (keeps_ofExcept _) fun _ => keeps_get fun m => ?_
  split
  · refine keeps_bind (keeps_ofExcept _) fun name => keepsData_value hargs 1 fun default hdefault => ?_
    refine keepsData_onObjects fun ho h => (h.of_addClassProperty ho).imp_right fun hnew => ?_
    rw [← hnew]
    exact hdefault
  · exact keeps_throw _

theorem keepsData_runContinuation (hargs : ∀ t ∈ i.args, t.value.StoresData) :
    Keeps KeepsData (runContinuation i depth) := by
  refine keeps_bind (keeps_context _) fun c => ?_
  split
  · split
    · exact keeps_pure _
    · exact keeps_bind (keeps_ofExcept _) fun _ => keeps_runCondition i depth
  · exact keeps_pure _
  · exact keeps_bind (keepsData_addProperty hargs) fun _ => keeps_pure _
  · exact keeps_throw _

theorem keepsData_runClass : Keeps KeepsData (runClass i) :=
  keeps_bind (keeps_ofExcept _) fun _ =>
    keeps_bind (keepsData_onObjects fun ho h => Or.inl (h.of_declareClass ho)) fun _ =>
      keeps_bind (keeps_modify fun _ hm => ⟨hm.symbols, hm.objects⟩) fun _ => keeps_pure _

theorem keepsData_createObject (className : Option String) : Keeps KeepsData (createObject className) := by
  refine fun m => (ends_createObject className m).mono ?_ ?_
  · rintro id _ ⟨o, ho, rfl⟩ hm
    obtain ⟨-, rfl⟩ := Objects.create_eq_ok ho
    exact ⟨hm.symbols, fun v hv => hm.objects v (Objects.Holds.of_push hv)⟩
  · rintro _ _ ⟨-, rfl⟩ hm
    exact hm

theorem keepsData_declareObject (name : String) (id : Nat) : Keeps KeepsData (declareObject name id) := by
  refine keeps_bind (keepsData_declare name false ?_) fun _ =>
    keeps_bind (keeps_modify fun _ hm => ⟨hm.symbols, hm.objects⟩) fun _ => keeps_pure _
  rintro v ⟨⟩
  exact .of_isData rfl

theorem keepsData_runObject : Keeps KeepsData (runObject i) := by
  refine keeps_bind (keeps_ofExcept _) fun name => keeps_bind (keeps_ofExcept _) fun className =>
    keeps_get fun m => ?_
  dsimp only
  split
  · exact keeps_bind (keeps_pure _) (keepsData_declareObject name)
  · exact keeps_bind (keepsData_createObject _) (keepsData_declareObject name)

theorem keepsData_runProperty (hargs : ∀ t ∈ i.args, t.value.StoresData) : Keeps KeepsData (runProperty i depth) := by
  refine keeps_bind (keeps_context _) fun c => keeps_get fun m => ?_
  split
  · exact keeps_bind (keeps_ofExcept _) fun name => keepsData_value hargs 1 fun value hvalue =>
      keeps_bind (keepsData_setProperty _ name hvalue) fun _ => keeps_pure _
  · exact keeps_throw _

theorem keepsData_runFunction : Keeps KeepsData (runFunction i) := by
  refine keeps_bind (keeps_ofExcept _) fun name => keeps_bind (keeps_readParameters _ _ _) fun params =>
    keeps_get fun m => keeps_bind (keepsData_onSymbolsReply (.declareFunction name params m.cursor) (by rintro v ⟨⟩)
      fun _ _ _ hs => by rw [Symbols.perform, hs]; rfl) fun reply => ?_
  split <;> exact keeps_pure _

theorem keepsData_runExecute (hargs : ∀ t ∈ i.args, t.value.StoresData) : Keeps KeepsData (runExecute i) := by
  refine keeps_bind (keeps_ofExcept _) fun name => keeps_get fun m =>
    keeps_bind (keepsData_onSymbolsReply (.call name ((i.args.drop 1).map (·.value)) m.cursor) ?_
      fun _ _ _ hs => by rw [Symbols.perform, hs]; rfl) fun _ => keeps_pure _
  intro v hv
  obtain ⟨t, ht, rfl⟩ := List.mem_map.mp hv
  exact hargs t (List.mem_of_mem_drop ht)

theorem keepsData_runEnd : Keeps KeepsData (runEnd i) := by
  refine keeps_bind (keeps_ofExcept _) fun name =>
    keeps_bind (keepsData_onSymbolsReply (.finishCall name) (by rintro v ⟨⟩)
      fun _ _ _ hs => by rw [Symbols.perform, hs]; rfl) fun reply => ?_
  split <;> exact keeps_pure _

theorem keepsData_runIterate (hargs : ∀ t ∈ i.args, t.value.StoresData) : Keeps KeepsData (runIterate i) := by
  unfold runIterate
  split
  · rename_i items hitems
    obtain ⟨v, hv, hgroup⟩ := Option.bind_eq_some_iff.mp hitems
    obtain rfl := group?_eq_some.mp hgroup
    have hgiven := storesData_group.mp (storesData_of_value? hargs _ hv)
    refine keeps_bind (keeps_ofExcept _) fun name => keeps_get fun m =>
      keeps_bind (keepsData_onSymbolsReply (.iterate name items m.cursor) hgiven
        fun _ _ _ hs => by rw [Symbols.perform, hs]; rfl) fun reply => ?_
    split <;> exact keeps_pure _
  · exact keeps_throw _

/-- **Built-in keywords add nothing but data** when their arguments store data. -/
theorem keepsData_runBuiltin (b : Builtin) (hargs : ∀ t ∈ i.args, t.value.StoresData) :
    Keeps KeepsData (runBuiltin b i depth) := by
  have hmode : ∀ m n, KeepsData m { m with mode := n } := fun _ _ hm => ⟨hm.symbols, hm.objects⟩
  cases b with
  | declare => exact keepsData_runDeclare hargs
  | assign => exact keepsData_runAssign hargs
  | arithmetic op => exact keepsData_runArithmetic op
  | join => exact keepsData_runJoin
  | log => exact keeps_bind (keeps_modify fun _ hm => ⟨hm.symbols, hm.objects⟩) fun _ => keeps_pure _
  | function => exact keepsData_runFunction
  | execute => exact keepsData_runExecute hargs
  | finish => exact keepsData_runEnd
  | condition => exact keeps_runCondition i depth
  | otherwise => exact keeps_runOtherwise depth
  | continuation => exact keepsData_runContinuation hargs
  | jump => exact keeps_runJump i
  | iterate => exact keepsData_runIterate hargs
  | newClass => exact keepsData_runClass
  | newObject => exact keepsData_runObject
  | property => exact keepsData_runProperty hargs
  | pause => exact keeps_get fun _ => keeps_bind (keeps_ofExcept _) fun mode =>
      keeps_bind (keeps_modify fun m => hmode m mode) fun _ => keeps_pure _
  | awaitKey => exact keeps_bind (keeps_modify fun m => hmode m _) fun _ => keeps_pure _
  | stop => exact keeps_bind (keeps_modify fun m hm => hmode m.hardReset .idle hm.hardReset) fun _ => keeps_pure _
  | restart =>
    refine keeps_bind (keeps_modify fun m hm => ?_) fun _ => keeps_pure _
    split_ifs
    · exact hm.softReset
    · exact hm.hardReset
  | exportName => exact keepsData_runExport
  | importName => exact keepsData_runImport

end Keywords

/-! ## Rows -/

section Rows

variable {R : Machine → Machine → Prop} [hR : Overlooking R] {i : Invocation} {depth : Nat}

theorem Plain.keeps_runKeyword (hm : m.Plain) (inv : Invoke)
    (h : ∀ b, validate i.keyword b.descriptors i.args = .ok () →
      Ends (runBuiltin b i depth) m (fun _ k => R m k) fun _ k => R m k) :
    Ends (Machine.runKeyword inv i depth) m (fun _ k => R m k) fun _ k => R m k := by
  unfold Machine.runKeyword
  split
  · exact keeps_bind (keeps_warn _) (fun _ => keeps_pure _) m
  · refine ends_get ?_
    rw [hm.find?_keyword]
    dsimp only
    split
    · exact ends_ofExcept_bind (fun _ hvalid => h _ hvalid) fun _ _ => hR.refl m
    · exact keeps_throw _ m

theorem keeps_leaveContext (keyword : String) (m : Machine) : R m (m.leaveContext keyword depth) := by
  unfold leaveContext
  split_ifs
  · exact hR.refl m
  · exact hR.contexts m _

theorem Plain.keeps_dispatch (hm : m.Plain) (inv : Invoke) {s : Statement}
    (h : ∀ b line, validate s.keyword.text b.descriptors s.args = .ok () →
      Ends (runBuiltin b ⟨s.keyword.text, s.labels, s.args, line⟩ depth) m (fun _ k => R m k) fun _ k => R m k) :
    Ends (Machine.dispatch inv s depth) m (fun _ k => R m k) fun _ k => R m k := by
  unfold Machine.dispatch
  dsimp only
  split
  · exact keeps_throw _ m
  · refine ends_get (ends_ofExcept_bind (fun _ _ => ends_get ?_) fun _ _ => hR.refl m)
    refine ends_bind (hm.keeps_runKeyword inv fun b => h b _) fun next k hk => ends_modify_bind (ends_pure ?_)
    exact hR.trans hk (keeps_leaveContext _ k)

/-- **What the built-in keywords keep on some tokens that they accept, rows of such tokens keep**, by induction on the
bound of the nesting. -/
theorem Plain.keeps_runNested {P : Token → Prop}
    (h : ∀ (b : Builtin) (i : Invocation) depth, (∀ t ∈ i.args, P t) →
      validate i.keyword b.descriptors i.args = .ok () → Keeps R (runBuiltin b i depth))
    (inv : Invoke) (bound : Nat) (hm : m.Plain) {tokens : List Token} (htokens : ∀ t ∈ tokens, P t) (depth : Nat) :
    Ends (runNested inv bound tokens depth) m (fun _ k => R m k) fun _ k => R m k := by
  induction bound generalizing m tokens depth with
  | zero => exact ends_pure (hR.refl m)
  | succ bound ih =>
    cases tokens with
    | nil => exact ends_pure (hR.refl m)
    | cons first rest =>
      have hcons := runNested_cons inv bound first rest depth m
      have hplain := hm.openContext depth
      have hopen : R m (m.openContext depth) := by
        obtain ⟨cs, hopen, -⟩ := m.openContext_eq_withContexts depth
        rw [hopen]
        exact hR.contexts m cs
      split_ifs at hcons
      · exact (ends_pure (x := none) hopen).of_apply_eq hcons
      · let s := Statement.ofTokens m.registry.isLabel first rest
        have hargs : ∀ t ∈ s.args, P t := fun t ht => htokens t (Statement.mem_of_mem_args ht)
        have hdispatch : Ends (Machine.dispatch inv s depth) (m.openContext depth)
            (fun next k => R m k ∧ Machine.dispatch inv s depth (m.openContext depth) = (.ok next, k))
            fun _ k => R m k :=
          ((hplain.keeps_dispatch inv fun b line hvalid =>
            h b ⟨s.keyword.text, s.labels, s.args, line⟩ depth hargs hvalid _).and (ends_of_ok fun _ _ => id)).mono
            (fun _ _ hk => ⟨hR.trans hopen hk.1, hk.2⟩) fun _ _ hk => hR.trans hopen hk.1
        refine (ends_bind hdispatch fun next k hk => ?_).of_apply_eq hcons
        obtain ⟨hkept, hok⟩ := hk
        cases next with
        | following => exact ends_pure hkept
        | line n => exact ends_pure hkept
        | nested skip =>
          have hnested : ∀ t ∈ s.args.drop skip, P t := fun t ht => hargs t (List.mem_of_mem_drop ht)
          have hinner := ih (hplain.dispatch hok) hnested (depth + 1)
          exact hinner.mono (fun _ _ => hR.trans hkept) fun _ _ => hR.trans hkept

end Rows

/-! ## Machines that are fed with data -/

end Machine

/-- A call that provides data. -/
def HostCall.providesData : HostCall → Bool
  | provide _ value => value.normalized.isData
  | _ => true

namespace Machine

/-- The machines of hosts without extensions that provide nothing but data. -/
abbrev Fed : Machine → Prop := ReachedBy HostCall.providesData false

variable {m k : Machine}

/-- Without extensions there are no types but the built-in ones. -/
theorem Reachable.types (h : m.Reachable) : m.registry.types = [] := by
  rw [h.registry]
  rfl

/-- A property of the stores that lines keep without extensions, and all that such a host does around them. -/
structure StoreInvariant (P : Machine → Prop) : Prop where
  stores {m k : Machine} : P m → k.symbols = m.symbols → k.objects = m.objects → P k
  line {m : Machine} (inv : Invoke) (line : String) : m.Plain → m.registry.types = [] → P m →
    Ends (Machine.runLine inv line) m (fun _ k => P k) fun _ k => P k
  finish {m : Machine} (line : Nat) : P m → P { m with symbols := m.symbols.finishDeclaration line }
  provide {m : Machine} (name : String) {value : Value} : P m → value.StoresData → P (m.provide name value)
  hardReset {m : Machine} : P m → P m.hardReset

section StoreInvariant

variable {P : Machine → Prop} (hP : StoreInvariant P)
include hP

theorem StoreInvariant.fail (hm : P m) (f : Fault) : P (m.fail f) := by
  obtain ⟨events, hfail⟩ := fail_eq f m
  rw [hfail]
  exact hP.stores hm rfl rfl

theorem StoreInvariant.pass (hm : P m) (line : String) : P (m.pass line) := by
  have hfinish := hP.finish m.cursor hm
  unfold Machine.pass
  dsimp only
  split_ifs
  · exact hP.stores hm rfl rfl
  · split
    · split_ifs
      · exact hP.stores hfinish rfl rfl
      · exact hP.stores hm rfl rfl
    · exact hP.stores hm rfl rfl

/-- Moves of a run keep it. -/
theorem StoreInvariant.advance (hplain : m.Plain) (htypes : m.registry.types = []) (hm : P m) {t : Stretch}
    (h : m.advance = some t) : P t.last := by
  unfold Machine.advance at h
  split at h
  · cases h
    exact hP.stores hm rfl rfl
  · split at h
    · cases h
      exact hP.stores hm rfl rfl
    · rename_i line hline
      split_ifs at h
      · cases h
        have hrun := hP.line (invoke m.nesting) line hplain.onLine htypes (hP.stores (k := m.onLine) hm rfl rfl)
        rw [guarded_apply, runCursorLine_apply _ hline, bind_apply]
        rcases ha : Machine.runLine (invoke m.nesting) line m.onLine with ⟨f | next, k⟩
        · exact hP.fail (hrun.of_error ha) f
        · exact hP.stores (hrun.of_ok ha) rfl rfl
      · cases h
        exact hP.pass hm line
  · cases h

theorem StoreInvariant.stretch (h : m.Reachable) (hm : P m) (n : Nat) : P (m.stretch n).last := by
  have hboth := stretch_keeps (P := fun m => m.Reachable ∧ P m)
    (fun hk hmove => ⟨hk.1.move hmove, hP.advance hk.1.plain hk.1.types hk.2 hmove⟩) ⟨h, hm⟩ n
  exact hboth.2

theorem StoreInvariant.execute (hplain : m.Plain) (htypes : m.registry.types = []) (hm : P m) (text : String) :
    P (Machine.execute text m).2 := by
  have hends : Ends (Machine.execute text) m (fun _ k => P k) fun _ k => P k := by
    refine Ends.of_apply_eq ?_ (execute_apply text m)
    unfold Machine.executeWith
    dsimp only
    split
    · have hplain' : Plain { m with executing := none } := ⟨hplain.keywords, hplain.coherent, hplain.nonempty⟩
      have hrun := hP.line (invoke m.nesting) (Text.trim (stripComment text)) hplain' htypes (hP.stores hm rfl rfl)
      refine ends_modify_bind (ends_bind hrun fun target k hk => ?_)
      cases target with
      | none => exact ends_pure hk
      | some n => exact ends_modify (hP.stores hk rfl rfl)
    · exact ends_pure hm
  exact hends.snd

theorem StoreInvariant.launch (hm : P m) : P (Machine.launch m).2 := by
  unfold Machine.launch
  split
  · exact hP.fail (hP.stores (k := { m with executing := none }) hm rfl rfl) _
  · exact hP.stores (hP.hardReset hm) rfl rfl

theorem StoreInvariant.resume (hm : P m) : P m.resume := by
  unfold Machine.resume
  split <;> exact hP.stores hm rfl rfl

theorem StoreInvariant.start (h : m.Reachable) (hm : P m) {fuel : Nat} {answer : Except Fault Unit}
    (hstart : m.start fuel = some (answer, k)) : P k := by
  have hlaunch := hP.launch hm
  have hreach := h.launch
  rcases start_cases hstart with ⟨-, -, rfl⟩ | ⟨-, hl | ⟨s, result, hl, hrun, -⟩⟩
  · exact hP.resume hm
  · rw [hl] at hlaunch
    exact hlaunch
  · rw [hl] at hlaunch hreach
    obtain ⟨n, rfl⟩ := exists_stretch_run hreach.avoidsExtensions hrun
    exact hP.stretch hreach hlaunch n

/-- **Calls of a host that provides data keep it.** -/
theorem StoreInvariant.perform (h : m.Reachable) (hm : P m) {c : HostCall} (hc : c.providesData = true)
    {answer : Except Fault Unit} (hperform : c.perform m = some (answer, k)) : P k := by
  cases c with
  | load text name =>
    obtain rfl : (Machine.load text name m).2 = k := congrArg Prod.snd (Option.some.inj hperform)
    unfold Machine.load
    rw [bind_apply, ofExcept_apply]
    cases Script.ofText? text with
    | error f => exact hm
    | ok script =>
      dsimp only
      rw [modify_apply]
      exact hP.stores (hP.hardReset hm) rfl rfl
  | start fuel => exact hP.start h hm hperform
  | startWith fuel budget =>
    change m.startWith fuel budget = _ at hperform
    unfold Machine.startWith at hperform
    split_ifs at hperform
    · cases hperform
      exact hP.fail hm _
    · exact hP.start (h.withBudget budget) (hP.stores hm rfl rfl) hperform
  | tick =>
    obtain rfl : (Machine.tick m).2 = k := congrArg Prod.snd (Option.some.inj hperform)
    obtain ⟨n, hn⟩ := exists_stretch_tick h.avoidsExtensions
    rw [hn]
    exact hP.stretch h hm n
  | run fuel limit =>
    obtain ⟨⟨count, k'⟩, hrun, hsame⟩ := Option.map_eq_some_iff.mp hperform
    cases hsame
    obtain ⟨n, rfl⟩ := exists_stretch_run h.avoidsExtensions hrun
    exact hP.stretch h hm n
  | pause =>
    cases hperform
    unfold Machine.pause
    split <;> exact hP.stores hm rfl rfl
  | resume =>
    cases hperform
    exact hP.resume hm
  | stop =>
    cases hperform
    exact hP.stores (hP.hardReset hm) rfl rfl
  | execute text =>
    obtain rfl : (Machine.execute text m).2 = k := congrArg Prod.snd (Option.some.inj hperform)
    exact hP.execute h.plain h.types hm text
  | deliverKey key =>
    cases hperform
    have hkey := hP.provide lastKeyName hm (storesData_string key)
    unfold Machine.deliverKey
    dsimp only
    split <;> exact hP.stores hkey rfl rfl
  | provide name value =>
    cases hperform
    exact hP.provide name hm hc
  | print message =>
    cases hperform
    exact hP.stores hm rfl rfl

/-- **What holds of new machines holds of all that are fed with data**, since every call and every move keeps it. -/
theorem StoreInvariant.fed (hnew : ∀ (s : Settings) (search : Search), P (ofSettings s search)) (h : m.Fed) :
    P m := by
  induction h with
  | new s search => exact hnew s search
  | call c hm hc hperform ih => exact hP.perform hm.reachable ih hc hperform
  | register debug e _ hno => cases hno
  | clock now _ ih => exact hP.stores ih rfl rfl
  | launch n _ ih => exact hP.launch (hP.stores ih rfl rfl)
  | move hm hmove ih => exact hP.advance hm.reachable.plain hm.reachable.types ih hmove

end StoreInvariant

/-! ## They hold data -/

/-- **Lines add nothing but data**, since what they write down or look up stores data. -/
theorem Plain.runLine_holdsData (hplain : m.Plain) (htypes : m.registry.types = []) (hm : m.HoldsData)
    (inv : Invoke) (line : String) :
    Ends (Machine.runLine inv line) m (fun _ k => k.HoldsData) fun _ k => k.HoldsData := by
  refine ends_get (ends_ofExcept_bind (fun tokens htokens => ?_) fun _ _ => hm)
  rw [htypes] at htokens
  have hrow := hplain.keeps_runNested (R := KeepsData) (P := fun t => t.value.StoresData)
    (fun b i depth hargs _ => keepsData_runBuiltin b hargs) inv tokens.length (hm.storesData_of_tokenize htokens) 0
  have hclose : ∀ k : Machine, KeepsData m k → HoldsData { k with contexts := k.contexts.take 1 } :=
    fun k hk => ⟨(hk hm).symbols, (hk hm).objects⟩
  exact ends_finally (hrow.mono (fun _ k => hclose k) fun _ k => hclose k)

theorem storeInvariant_holdsData : StoreInvariant HoldsData where
  stores hm hsymbols hobjects := ⟨hsymbols ▸ hm.symbols, hobjects ▸ hm.objects⟩
  line inv line hplain htypes hm := hplain.runLine_holdsData htypes hm inv line
  finish line hm := hm.perform (c := .finishDeclaration line) (by rintro v ⟨⟩)
  provide name _ hm hvalue := hm.perform (c := .provide name _) fun _ hv => List.mem_singleton.mp hv ▸ hvalue
  hardReset := HoldsData.hardReset

theorem holdsData_ofSettings (s : Settings) (search : Search) : (ofSettings s search).HoldsData where
  symbols := by
    rintro v (⟨isGlobal, hmem, -⟩ | ⟨hframe, -⟩ | ⟨hit, -⟩)
    · cases isGlobal <;> cases hmem
    · cases hframe
    · cases hit
  objects := by
    rintro v (⟨he, -⟩ | ⟨hobject, -⟩)
    · cases he
    · simp [ofSettings] at hobject

/-- **Machines that are fed with data hold nothing but data.** -/
theorem Fed.holdsData (h : m.Fed) : m.HoldsData := storeInvariant_holdsData.fed holdsData_ofSettings h

end Machine

end LineScript
