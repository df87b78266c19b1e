/-
# Faults of the language

What can go wrong in an operation of the stores, in a literal, an argument or a directive is a fault of the language,
never one of the machine itself (`Lawful`).  Two kinds of promises are needed: an object that is read or written must
exist (`lawful_property`, `lawful_setProperty`), and an argument that a keyword takes must be there
(`lawful_text`, `lawful_value`).  Checked arguments keep the second one (`required_le_of_validate`).
-/
import LineScript.Proofs.Symbols.Operation
import LineScript.Proofs.Script.Checking
import LineScript.Machine.Host

namespace LineScript

/-- An answer, or a fault of the language. -/
def Lawful {α : Type} (e : Except Fault α) : Prop := ∀ f, e = .error f → f.isOfLanguage = true

variable {α β : Type}

theorem lawful_ok (x : α) : Lawful (.ok x : Except Fault α) := fun _ h => nomatch h

theorem lawful_error {f : Fault} (h : f.isOfLanguage = true) : Lawful (.error f : Except Fault α) := by
  rintro _ ⟨⟩
  exact h

theorem lawful_bind {e : Except Fault α} {k : α → Except Fault β} (he : Lawful e)
    (hk : ∀ x, e = .ok x → Lawful (k x)) : Lawful (e >>= k) := by
  intro f h
  rcases Symbols.bind_eq_error h with hfails | ⟨x, hx, hrest⟩
  · exact he f hfails
  · exact hk x hx f hrest

theorem lawful_map {e : Except Fault α} (he : Lawful e) (g : α → β) : Lawful (g <$> e) := by
  cases e with
  | ok x => exact lawful_ok (g x)
  | error f => exact lawful_error (he f rfl)

/-- Operations on the members of a list. -/
theorem lawful_mapM {k : α → Except Fault β} {l : List α} (hk : ∀ x ∈ l, Lawful (k x)) :
    Lawful (l.mapM k) := by
  induction l with
  | nil =>
    rw [List.mapM_nil]
    exact lawful_ok _
  | cons x rest ih =>
    rw [List.mapM_cons]
    exact lawful_bind (hk x List.mem_cons_self) fun _ _ =>
      lawful_bind (ih fun y hy => hk y (List.mem_cons_of_mem x hy)) fun _ _ => lawful_ok _

/-! ## Names -/

namespace Symbols

variable (s : Symbols) (name : String)

theorem lawful_checkTag (held : Option Value) (given : Value) : Lawful (checkTag name held given) := by
  intro f h
  obtain ⟨v, -, -, rfl⟩ := checkTag_eq_error h
  rfl

theorem lawful_declare (initial : Option Value) (isGlobal : Bool) :
    Lawful (s.declare name initial isGlobal) := by
  intro f h
  rcases declare_eq_error h with rfl | ⟨held, given, -, -, rfl⟩ <;> rfl

theorem lawful_assign (value : Value) (isGlobal : Bool) : Lawful (s.assign name value isGlobal) := by
  unfold assign
  dsimp only
  split
  · exact lawful_error rfl
  · split
    · exact lawful_error rfl
    · split
      · exact lawful_bind (lawful_checkTag _ _ _) fun _ _ => lawful_ok _
      · exact lawful_error rfl

theorem lawful_readable (t : Catalog Variable) (isGlobal : Bool) : Lawful (readable t isGlobal name) := by
  unfold readable
  split
  · exact lawful_error rfl
  · split
    · split
      · exact lawful_ok _
      · exact lawful_error rfl
    · exact lawful_error rfl

theorem lawful_lookup (reach : Reach) : Lawful (s.lookup name reach) := by
  cases reach with
  | locals => exact lawful_readable _ _ _
  | globals => exact lawful_readable _ _ _
  | parameters =>
    unfold lookup
    dsimp only
    split
    · exact lawful_error rfl
    · split
      · exact lawful_ok _
      · exact lawful_error rfl
  | nearest =>
    unfold lookup
    dsimp only
    split
    · exact lawful_ok _
    · exact lawful_readable _ _ _

theorem lawful_declareFunction (params : List Parameter) (line : Nat) :
    Lawful (s.declareFunction name params line) := by
  unfold declareFunction
  dsimp only
  split
  · exact lawful_ok _
  · split
    · exact lawful_error rfl
    · split
      · split
        · exact lawful_ok _
        · exact lawful_ok _
      · exact lawful_ok _

theorem lawful_callable : Lawful (s.callable name) := by
  unfold callable
  split
  · exact lawful_ok _
  · exact lawful_error rfl

theorem lawful_pushCall (frame : Frame) : Lawful (s.pushCall frame) := by
  unfold pushCall
  split
  · exact lawful_ok _
  · exact lawful_error rfl

theorem lawful_checkArguments (params : List Parameter) (args : List Value) :
    Lawful (checkArguments name params args) := by
  induction params generalizing args with
  | nil => exact lawful_ok _
  | cons p ps ih =>
    cases args with
    | nil => exact lawful_ok _
    | cons v vs =>
      unfold checkArguments
      split
      · exact ih vs
      · exact lawful_error rfl

theorem lawful_call (args : List Value) (line : Nat) : Lawful (s.call name args line) := by
  refine lawful_bind (s.lawful_callable name) fun f _ => ?_
  dsimp only
  split
  · exact lawful_error rfl
  · exact lawful_bind (lawful_checkArguments _ _ _) fun _ _ =>
      lawful_bind (s.lawful_pushCall _) fun _ _ => lawful_ok _

theorem lawful_finishCall : Lawful (s.finishCall name) := by
  intro f h
  unfold finishCall at h
  split at h
  · cases h
    rfl
  · split at h
    · cases h
    · split_ifs at h
      split at h
      · cases h
      · split at h <;> cases h

theorem lawful_iterate (items : List Value) (line : Nat) : Lawful (s.iterate name items line) := by
  unfold iterate
  split
  · exact lawful_error rfl
  · refine lawful_bind (s.lawful_callable name) fun f _ => ?_
    split
    · exact lawful_error rfl
    · dsimp only
      split
      · exact lawful_error rfl
      · split
        · exact lawful_ok _
        · exact lawful_bind (s.lawful_pushCall _) fun _ _ => lawful_ok _

end Symbols

/-! ## Objects -/

namespace Objects

variable (o : Objects) (name : String)

theorem lawful_declareClass : Lawful (o.declareClass name) := by
  unfold declareClass
  split
  · exact lawful_error rfl
  · exact lawful_ok _

theorem lawful_addClassProperty (className : String) (default : Value) :
    Lawful (o.addClassProperty className name default) := by
  unfold addClassProperty
  split
  · exact lawful_error rfl
  · split
    · exact lawful_error rfl
    · exact lawful_ok _

theorem lawful_create (className : Option String) : Lawful (o.create className) := by
  unfold create
  split
  · exact lawful_error rfl
  · exact lawful_ok _

/-- Reading a property is lawful on objects that exist. -/
theorem lawful_property {id : Nat} (hid : id < o.objects.size) : Lawful (o.property id name) := by
  unfold property
  rw [Array.getElem?_eq_getElem hid]
  dsimp only
  split
  · exact lawful_ok _
  · exact lawful_error rfl

theorem lawful_checkNew (object : Object) (value : Value) : Lawful (o.checkNew object name value) := by
  unfold checkNew
  split
  · exact lawful_ok _
  · split
    · exact lawful_error rfl
    · split
      · exact lawful_error rfl
      · split
        · exact lawful_ok _
        · exact lawful_error rfl

/-- Writing a property is lawful on objects that exist. -/
theorem lawful_setProperty {id : Nat} (hid : id < o.objects.size) (value : Value) :
    Lawful (o.setProperty id name value) := by
  unfold setProperty
  rw [Array.getElem?_eq_getElem hid]
  dsimp only
  split
  · split
    · exact lawful_ok _
    · exact lawful_error rfl
  · exact lawful_bind (o.lawful_checkNew name _ _) fun _ _ => lawful_ok _

end Objects

/-! ## Lines -/

/-- What ends the scan of a line is a fault of the language. -/
theorem isOfLanguage_of_scanFrom {region : Region} {seen rest : List Char} {f : Fault}
    (h : (scanFrom region seen rest).fault = some f) : f.isOfLanguage = true := by
  simp [Fault.isOfLanguage, kind_of_scanFrom h]

theorem lawful_elementAt (base accessor : String) (items : List Value) :
    Lawful (elementAt base accessor items) := by
  unfold elementAt
  split
  · exact lawful_error rfl
  · split
    · exact lawful_ok _
    · exact lawful_error rfl

theorem lawful_propertyOf (o : Objects) (base accessor : String) {id : Nat} (hid : id < o.objects.size) :
    Lawful (propertyOf o base accessor id) := by
  unfold propertyOf
  split
  · exact lawful_error rfl
  · exact o.lawful_property accessor hid

/-- Looking references up is lawful when the objects that names hold exist. -/
theorem lawful_resolver {s : Symbols} {o : Objects}
    (h : ∀ name reach id, s.lookup name reach = .ok (.object id) → id < o.objects.size) (r : Reference) :
    Lawful (resolver s o r) := by
  unfold resolver
  split
  · exact s.lawful_lookup _ _
  · refine lawful_bind (s.lawful_lookup _ _) fun v hv => ?_
    split
    · exact lawful_elementAt _ _ _
    · exact lawful_propertyOf o _ _ (h _ _ _ hv)
    · exact lawful_error rfl

/-- Cutting a line is lawful when looking references up is. -/
theorem lawful_tokenize (types : List WordType) {resolve : Resolver} (h : ∀ r, Lawful (resolve r))
    (line : String) : Lawful (tokenize types (some resolve) line) := by
  refine lawful_bind (lawful_mapM fun l _ => ?_) fun tokens _ => ?_
  · cases l with
    | bare word => exact lawful_ok _
    | quoted text => exact lawful_ok _
    | group inner => exact lawful_ok _
    | reference raw reach => exact lawful_bind (h _) fun _ _ => lawful_ok _
  · split
    · rename_i f hf
      exact lawful_error (isOfLanguage_of_scanFrom hf)
    · exact lawful_ok _

/-! ## Arguments -/

theorem Descriptor.lawful_check (d : Descriptor) (keyword : String) (arg : Token) :
    Lawful (d.check keyword arg) := by
  unfold check
  split
  · exact lawful_ok _
  · exact lawful_error rfl

theorem Descriptor.lawful_checkAll (d : Descriptor) (keyword : String) (args : List Token) :
    Lawful (d.checkAll keyword args) := by
  induction args with
  | nil => exact lawful_ok _
  | cons arg rest ih => exact lawful_bind (d.lawful_check keyword arg) fun _ _ => ih

theorem Descriptor.lawful_checkMissing (d : Descriptor) (keyword : String) :
    Lawful (d.checkMissing keyword) := by
  unfold checkMissing
  split
  · exact lawful_ok _
  · exact lawful_error rfl

theorem lawful_validate (keyword : String) (ds : List Descriptor) (args : List Token) :
    Lawful (validate keyword ds args) := by
  have hfrom : ∀ tooMany : Fault, tooMany.isOfLanguage = true → ∀ ds args,
      Lawful (validateFrom keyword tooMany ds args) := by
    intro tooMany htoo ds
    induction ds with
    | nil =>
      intro args
      cases args with
      | nil => exact lawful_ok _
      | cons => exact lawful_error htoo
    | cons d ds ih =>
      intro args
      unfold validateFrom
      split
      · split
        · exact d.lawful_checkMissing keyword
        · exact d.lawful_checkAll keyword _
      · split
        · exact lawful_bind (d.lawful_checkMissing keyword) fun _ _ => ih _
        · exact lawful_bind (d.lawful_check keyword _) fun _ _ => ih _
  exact hfrom _ rfl ds args

/-- How many arguments there must be at least. -/
def required : List Descriptor → Nat
  | [] => 0
  | d :: ds => if d.optional then 0 else if d.recurring then 1 else required ds + 1

/-- **Checked arguments are enough.** -/
theorem required_le_of_validate {keyword : String} {ds : List Descriptor} {args : List Token}
    (h : validate keyword ds args = .ok ()) : required ds ≤ args.length := by
  unfold validate at h
  generalize Fault.argumentsTooMany keyword ds.length args.length = tooMany at h
  induction ds generalizing args with
  | nil => exact Nat.zero_le _
  | cons d ds ih =>
    rw [required]
    by_cases hoptional : d.optional = true
    · rw [if_pos hoptional]
      exact Nat.zero_le _
    · rw [if_neg hoptional]
      cases args with
      | nil =>
        have hmissing : d.checkMissing keyword = .error (.argumentMissing keyword d.name d.spec) :=
          if_neg hoptional
        unfold validateFrom at h
        rw [hmissing] at h
        split at h <;> cases h
      | cons arg rest =>
        split_ifs with hrecurring
        · exact Nat.succ_le_succ (Nat.zero_le _)
        · unfold validateFrom at h
          rw [if_neg hrecurring] at h
          obtain ⟨_, -, hrest⟩ := Symbols.bind_eq_ok h
          exact Nat.succ_le_succ (ih hrest)

namespace Invocation

variable {i : Invocation} {position : Nat}

theorem lawful_value (h : position < i.args.length) : Lawful (i.value position) := by
  unfold value value?
  rw [List.getElem?_eq_getElem h]
  exact lawful_ok _

theorem lawful_text (h : position < i.args.length) : Lawful (i.text position) := by
  unfold text text?
  rw [List.getElem?_eq_getElem h]
  exact lawful_ok _

/-- The values of a keyword are those of its arguments. -/
theorem exists_of_value? {v : Value} (h : i.value? position = some v) : ∃ t ∈ i.args, t.value = v := by
  obtain ⟨t, ht, rfl⟩ := Option.map_eq_some_iff.mp h
  exact ⟨t, List.mem_of_getElem? ht, rfl⟩

theorem exists_of_value {v : Value} (h : i.value position = .ok v) : ∃ t ∈ i.args, t.value = v := by
  unfold value at h
  split at h
  · rename_i w hw
    cases h
    exact exists_of_value? hw
  · cases h

theorem exists_of_text {text : String} (h : i.text position = .ok text) :
    ∃ t, i.args[position]? = some t ∧ t.text = text := by
  unfold Invocation.text at h
  split at h
  · rename_i written hwritten
    cases h
    exact Option.map_eq_some_iff.mp hwritten
  · cases h

end Invocation

/-! ## Keywords -/

theorem lawful_isInWith (search : Search) (left right : Value) : Lawful (isInWith search left right) := by
  unfold isInWith
  split
  · exact lawful_ok _
  · split
    · exact lawful_ok _
    · exact lawful_error rfl

theorem lawful_order (comparator : String) (less : Float → Float → Bool) (left right : Value) :
    Lawful (order comparator less left right) := by
  unfold order
  split
  · exact lawful_ok _
  · exact lawful_error rfl

theorem lawful_compareWith (search : Search) (left right : Value) (comparator : String) :
    Lawful (compareWith search left comparator right) := by
  unfold compareWith
  split
  · exact lawful_ok _
  · exact lawful_ok _
  · exact lawful_order _ _ _ _
  · exact lawful_order _ _ _ _
  · exact lawful_isInWith _ _ _
  · exact lawful_map (lawful_isInWith _ _ _) _
  · exact lawful_error rfl

namespace Machine

theorem lawful_holds (search : Search) (i : Invocation) : Lawful (holds search i) := by
  unfold holds
  split
  · exact lawful_compareWith _ _ _ _
  · exact lawful_error rfl

theorem lawful_compute (op : Arithmetic) (name : String) (current amount : Float) :
    Lawful (compute op name current amount) := by
  unfold compute
  split
  · exact lawful_ok _
  · exact lawful_ok _
  · exact lawful_ok _
  · split
    · exact lawful_error rfl
    · exact lawful_ok _
  · split
    · exact lawful_error rfl
    · exact lawful_ok _

theorem lawful_joinable (s : Symbols) (name : String) : Lawful (joinable s name) := by
  unfold joinable
  split
  · split
    · exact lawful_ok _
    · exact lawful_ok _
    · exact lawful_error rfl
  · rename_i f hf
    split
    · exact lawful_ok _
    · exact lawful_error (s.lawful_lookup name .locals f hf)

theorem lawful_classNamed (i : Invocation) (name : String) : Lawful (classNamed i name) := by
  unfold classNamed
  split
  · exact lawful_ok _
  · exact lawful_ok _
  · exact lawful_error rfl

theorem lawful_parameterTag (types : List WordType) (name : String) : Lawful (parameterTag types name) := by
  unfold parameterTag
  dsimp only
  split
  · exact lawful_ok _
  · exact lawful_error rfl

theorem lawful_jumpTarget (cursor lines : Nat) (operand : Option Value) :
    Lawful (jumpTarget cursor lines operand) := by
  refine lawful_bind ?_ fun requested _ => ?_
  · unfold requestedLine
    split
    · exact lawful_ok _
    · split
      · exact lawful_ok _
      · exact lawful_error rfl
    · exact lawful_error rfl
  · split
    · exact lawful_ok _
    · exact lawful_error rfl

theorem lawful_pauseMode (current : Mode) (ticks : Option Value) : Lawful (pauseMode current ticks) := by
  unfold pauseMode
  split
  · exact lawful_ok _
  · split
    · split_ifs
      · exact lawful_error rfl
      · exact lawful_ok _
      · exact lawful_ok _
    · exact lawful_error rfl

theorem lawful_checkLabels (r : Registry) (keyword : String) (labels : List String) :
    Lawful (checkLabels r keyword labels) := by
  induction labels with
  | nil => exact lawful_ok _
  | cons label rest ih =>
    unfold checkLabels
    dsimp only
    split
    · exact ih
    · exact lawful_error rfl

/-! ## Scripts -/

theorem lawful_checkStart (m : Machine) : Lawful m.checkStart := by
  have hsettings : Lawful m.settings.check := by
    unfold Settings.check
    split
    · exact lawful_error rfl
    · exact lawful_ok _
  have hthrow : ∀ {f : Fault} (k : PUnit → Except Fault Unit), f.isOfLanguage = true →
      Lawful ((throw f : Except Fault PUnit) >>= k) := fun k hf =>
    lawful_bind (lawful_error hf) fun _ h => nomatch h
  unfold checkStart
  dsimp only
  split
  · exact hthrow _ rfl
  · refine lawful_bind hsettings fun _ _ => ?_
    split
    · exact hthrow _ rfl
    · split
      · split
        · exact lawful_error rfl
        · exact lawful_ok _
      · exact lawful_ok _

theorem lawful_notesFrom (notes : Notes) (number : Nat) (lines : List String) :
    Lawful (notesFrom notes number lines) := by
  induction lines generalizing notes number with
  | nil => exact lawful_ok _
  | cons line rest ih =>
    unfold notesFrom
    split
    · split
      · exact ih _ _
      · exact lawful_error rfl
    · exact ih _ _

theorem lawful_ofText (text : String) : Lawful (Script.ofText? text) :=
  lawful_bind (lawful_notesFrom _ _ _) fun _ _ => lawful_ok _

end Machine

end LineScript
