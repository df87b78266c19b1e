/-
# Arguments by position

Arguments are checked in one pass over descriptors and arguments.  What the pass accepts is said here by positions alone
(`Fits`): up to the first recurring descriptor each descriptor stands for the argument at its own position, and the
recurring one for all arguments from its position on.

* `fits_cons`, `fits_cons_of_recurring`: the specification, taken apart at the first descriptor;
* `validateFrom_of_fits`, `validateFrom_of_not_fits`: the pass on arguments that fit, and on those that do not.

Main statement: arguments are valid exactly when they fit and are not too many; too many of them are a fault of form and
all else is one of typing (`validate_by_position`).
-/
import LineScript.Argument.Descriptor

namespace LineScript

/-! ## One descriptor -/

namespace Descriptor

/-- The argument at a position is accepted; where there is none, none is required. -/
def Takes (d : Descriptor) : Option Token → Prop
  | some arg => d.spec.accepts arg = true
  | none => d.optional = true

/-- All of some arguments are accepted; where there are none, none is required. -/
def TakesAll (d : Descriptor) (args : List Token) : Prop :=
  (∀ arg ∈ args, d.spec.accepts arg = true) ∧ (args = [] → d.optional = true)

variable {d : Descriptor} {arg : Token}

theorem check_of_accepts (keyword : String) (h : d.spec.accepts arg = true) : d.check keyword arg = .ok () :=
  if_pos h

/-- A rejected argument is a fault of typing. -/
theorem check_of_not_accepts (keyword : String) (h : ¬ d.spec.accepts arg = true) :
    ∃ f, d.check keyword arg = .error f ∧ f.kind = .typing :=
  ⟨_, if_neg h, rfl⟩

theorem checkMissing_of_optional (keyword : String) (h : d.optional = true) : d.checkMissing keyword = .ok () :=
  if_pos h

/-- A missing argument is a fault of typing. -/
theorem checkMissing_of_required (keyword : String) (h : ¬ d.optional = true) :
    ∃ f, d.checkMissing keyword = .error f ∧ f.kind = .typing :=
  ⟨_, if_neg h, rfl⟩

theorem checkAll_of_accepts (keyword : String) {args : List Token} (h : ∀ arg ∈ args, d.spec.accepts arg = true) :
    d.checkAll keyword args = .ok () := by
  induction args with
  | nil => rfl
  | cons arg rest ih =>
    obtain ⟨hfirst, hrest⟩ := List.forall_mem_cons.mp h
    unfold checkAll
    rw [check_of_accepts keyword hfirst]
    exact ih hrest

theorem checkAll_of_not_accepts (keyword : String) {args : List Token}
    (h : ¬ ∀ arg ∈ args, d.spec.accepts arg = true) : ∃ f, d.checkAll keyword args = .error f ∧ f.kind = .typing := by
  induction args with
  | nil => exact absurd (by simp) h
  | cons arg rest ih =>
    unfold checkAll
    by_cases hfirst : d.spec.accepts arg = true
    · rw [check_of_accepts keyword hfirst]
      exact ih fun hrest => h (List.forall_mem_cons.mpr ⟨hfirst, hrest⟩)
    · obtain ⟨f, hf, hkind⟩ := check_of_not_accepts keyword hfirst
      rw [hf]
      exact ⟨f, rfl, hkind⟩

end Descriptor

/-! ## The specification -/

/-- The position of the first recurring descriptor; the number of descriptors when none recurs. -/
def recurringAt (ds : List Descriptor) : Nat := ds.findIdx (·.recurring)

/-- Arguments fit descriptors by their positions. -/
structure Fits (ds : List Descriptor) (args : List Token) : Prop where
  /-- Before the first recurring descriptor each one takes the argument at its own position. -/
  single : ∀ i < recurringAt ds, ∀ d, ds[i]? = some d → d.Takes args[i]?
  /-- The first recurring descriptor takes all arguments from its position on. -/
  rest : ∀ d, ds[recurringAt ds]? = some d → d.TakesAll (args.drop (recurringAt ds))

/-- There are more arguments than descriptors, and no descriptor recurs. -/
def TooMany (ds : List Descriptor) (args : List Token) : Prop :=
  recurringAt ds = ds.length ∧ ds.length < args.length

variable {d : Descriptor} {ds : List Descriptor} {args : List Token}

theorem recurringAt_cons (hd : d.recurring = false) : recurringAt (d :: ds) = recurringAt ds + 1 := by
  simp [recurringAt, List.findIdx_cons, hd]

theorem recurringAt_cons_of_recurring (hd : d.recurring = true) : recurringAt (d :: ds) = 0 := by
  simp [recurringAt, List.findIdx_cons, hd]

theorem fits_nil (args : List Token) : Fits [] args where
  single := by rintro i hi d ⟨⟩
  rest := by rintro d ⟨⟩

/-- The first descriptor takes the first argument, and the others fit the other arguments. -/
theorem fits_cons (hd : d.recurring = false) :
    Fits (d :: ds) args ↔ d.Takes args.head? ∧ Fits ds args.tail := by
  have hdrop : args.drop (recurringAt ds + 1) = args.tail.drop (recurringAt ds) := by
    rw [← List.drop_one, List.drop_drop, Nat.add_comm]
  constructor
  · rintro ⟨hsingle, hrest⟩
    rw [recurringAt_cons hd] at hsingle hrest
    rw [hdrop] at hrest
    refine ⟨?_, ?_, hrest⟩
    · rw [List.head?_eq_getElem?]
      exact hsingle 0 (Nat.succ_pos _) d rfl
    · intro i hi d' hd'
      rw [List.getElem?_tail]
      exact hsingle (i + 1) (Nat.succ_lt_succ hi) d' hd'
  · rintro ⟨hfirst, hsingle, hrest⟩
    refine ⟨?_, ?_⟩
    · rw [recurringAt_cons hd]
      intro i hi d' hd'
      cases i with
      | zero =>
        obtain rfl : d = d' := Option.some.inj hd'
        rwa [← List.head?_eq_getElem?]
      | succ i =>
        rw [← List.getElem?_tail]
        exact hsingle i (Nat.lt_of_succ_lt_succ hi) d' hd'
    · rw [recurringAt_cons hd, hdrop]
      exact hrest

/-- A recurring descriptor takes all arguments, and what stands behind it does not count. -/
theorem fits_cons_of_recurring (hd : d.recurring = true) : Fits (d :: ds) args ↔ d.TakesAll args := by
  constructor
  · intro h
    have hrest := h.rest
    rw [recurringAt_cons_of_recurring hd] at hrest
    exact hrest d rfl
  · intro h
    refine ⟨?_, ?_⟩
    · rw [recurringAt_cons_of_recurring hd]
      intro i hi
      exact absurd hi (Nat.not_lt_zero i)
    · rw [recurringAt_cons_of_recurring hd]
      rintro _ ⟨⟩
      exact h

theorem tooMany_cons (hd : d.recurring = false) : TooMany (d :: ds) args ↔ TooMany ds args.tail := by
  unfold TooMany
  rw [recurringAt_cons hd, List.length_cons, List.length_tail]
  omega

theorem not_tooMany_cons (hd : d.recurring = true) : ¬ TooMany (d :: ds) args := by
  rintro ⟨hnone, -⟩
  rw [recurringAt_cons_of_recurring hd] at hnone
  cases hnone

/-! ## The pass -/

section

variable (keyword : String) (tooMany : Fault)

/-- At a descriptor that takes its argument the pass goes on. -/
theorem validateFrom_cons (hd : d.recurring = false) (hfirst : d.Takes args.head?) :
    validateFrom keyword tooMany (d :: ds) args = validateFrom keyword tooMany ds args.tail := by
  cases args with
  | nil =>
    rw [validateFrom, if_neg (by simp [hd]), d.checkMissing_of_optional keyword hfirst]
    rfl
  | cons arg rest =>
    rw [validateFrom, if_neg (by simp [hd]), d.check_of_accepts keyword hfirst]
    rfl

/-- At any other descriptor the pass ends with a fault of typing. -/
theorem validateFrom_cons_of_not_takes (hd : d.recurring = false) (hfirst : ¬ d.Takes args.head?) :
    ∃ f, validateFrom keyword tooMany (d :: ds) args = .error f ∧ f.kind = .typing := by
  cases args with
  | nil =>
    obtain ⟨f, hf, hkind⟩ := d.checkMissing_of_required keyword hfirst
    rw [validateFrom, if_neg (by simp [hd]), hf]
    exact ⟨f, rfl, hkind⟩
  | cons arg rest =>
    obtain ⟨f, hf, hkind⟩ := d.check_of_not_accepts keyword hfirst
    rw [validateFrom, if_neg (by simp [hd]), hf]
    exact ⟨f, rfl, hkind⟩

/-- At a recurring descriptor the pass ends, whatever descriptors follow. -/
theorem validateFrom_cons_of_recurring (hd : d.recurring = true) (h : d.TakesAll args) :
    validateFrom keyword tooMany (d :: ds) args = .ok () := by
  cases args with
  | nil =>
    rw [validateFrom, if_pos hd]
    exact d.checkMissing_of_optional keyword (h.2 rfl)
  | cons arg rest =>
    rw [validateFrom, if_pos hd]
    exact d.checkAll_of_accepts keyword h.1

theorem validateFrom_cons_of_not_takesAll (hd : d.recurring = true) (h : ¬ d.TakesAll args) :
    ∃ f, validateFrom keyword tooMany (d :: ds) args = .error f ∧ f.kind = .typing := by
  cases args with
  | nil =>
    rw [validateFrom, if_pos hd]
    exact d.checkMissing_of_required keyword fun hoptional => h ⟨by simp, fun _ => hoptional⟩
  | cons arg rest =>
    rw [validateFrom, if_pos hd]
    exact d.checkAll_of_not_accepts keyword fun haccepts => h ⟨haccepts, by simp⟩

/-- **Arguments that fit** are valid, unless they are too many. -/
theorem validateFrom_of_fits (h : Fits ds args) :
    (¬ TooMany ds args → validateFrom keyword tooMany ds args = .ok ()) ∧
      (TooMany ds args → validateFrom keyword tooMany ds args = .error tooMany) := by
  induction ds generalizing args with
  | nil =>
    cases args with
    | nil => exact ⟨fun _ => rfl, fun hmany => absurd hmany.2 (Nat.lt_irrefl 0)⟩
    | cons arg rest => exact ⟨fun hfew => absurd ⟨rfl, Nat.succ_pos _⟩ hfew, fun _ => rfl⟩
  | cons d ds ih =>
    by_cases hd : d.recurring = true
    · have hall := (fits_cons_of_recurring hd).mp h
      exact ⟨fun _ => validateFrom_cons_of_recurring keyword tooMany hd hall,
        fun hmany => absurd hmany (not_tooMany_cons hd)⟩
    · rw [Bool.not_eq_true] at hd
      obtain ⟨hfirst, hrest⟩ := (fits_cons hd).mp h
      rw [tooMany_cons hd, validateFrom_cons keyword tooMany hd hfirst]
      exact ih hrest

/-- **Arguments that do not fit** are a fault of typing. -/
theorem validateFrom_of_not_fits (h : ¬ Fits ds args) :
    ∃ f, validateFrom keyword tooMany ds args = .error f ∧ f.kind = .typing := by
  induction ds generalizing args with
  | nil => exact absurd (fits_nil args) h
  | cons d ds ih =>
    by_cases hd : d.recurring = true
    · rw [fits_cons_of_recurring hd] at h
      exact validateFrom_cons_of_not_takesAll keyword tooMany hd h
    · rw [Bool.not_eq_true] at hd
      rw [fits_cons hd, not_and] at h
      by_cases hfirst : d.Takes args.head?
      · rw [validateFrom_cons keyword tooMany hd hfirst]
        exact ih (h hfirst)
      · exact validateFrom_cons_of_not_takes keyword tooMany hd hfirst

/-- What stands behind a recurring descriptor does not matter, not even for the fault, and neither does the fault of too
many arguments. -/
theorem validateFrom_append_recurring (other : Fault) (hd : d.recurring = true) (before after after' : List Descriptor) :
    validateFrom keyword tooMany (before ++ d :: after) args =
      validateFrom keyword other (before ++ d :: after') args := by
  induction before generalizing args with
  | nil => cases args <;> simp only [List.nil_append, validateFrom, if_pos hd]
  | cons first before ih =>
    cases args <;> simp only [List.cons_append, validateFrom, ih]

end

/-- What the check of arguments comes to. -/
theorem validate_cases (keyword : String) (ds : List Descriptor) (args : List Token) :
    (Fits ds args ∧ ¬ TooMany ds args ∧ validate keyword ds args = .ok ()) ∨
      (Fits ds args ∧ TooMany ds args ∧
        validate keyword ds args = .error (.argumentsTooMany keyword ds.length args.length)) ∨
      (¬ Fits ds args ∧ ∃ f, validate keyword ds args = .error f ∧ f.kind = .typing) := by
  by_cases hfits : Fits ds args
  · obtain ⟨hfew, hmany⟩ := validateFrom_of_fits keyword (.argumentsTooMany keyword ds.length args.length) hfits
    by_cases htoo : TooMany ds args
    · exact Or.inr (Or.inl ⟨hfits, htoo, hmany htoo⟩)
    · exact Or.inl ⟨hfits, htoo, hfew htoo⟩
  · exact Or.inr (Or.inr ⟨hfits, validateFrom_of_not_fits keyword _ hfits⟩)

/-- **Arguments are valid exactly when they fit by position and are not too many**, for descriptors in any order.

* Where they are not valid, the fault is one of form when they fit and are only too many, and one of typing otherwise.
* Descriptors behind a recurring one make no difference, to the wording of a fault either. -/
theorem validate_by_position (keyword : String) (ds : List Descriptor) (args : List Token) :
    (validate keyword ds args = .ok () ↔ Fits ds args ∧ ¬ TooMany ds args) ∧
    (∀ f, validate keyword ds args = .error f →
      (f.kind = .form ↔ Fits ds args ∧ TooMany ds args) ∧ (f.kind ≠ .form → f.kind = .typing)) ∧
    ∀ before d after after', ds = before ++ d :: after → d.recurring = true →
      validate keyword ds args = validate keyword (before ++ d :: after') args := by
  refine ⟨?_, ?_, ?_⟩
  · rcases validate_cases keyword ds args with ⟨hfits, hfew, hok⟩ | ⟨hfits, hmany, herror⟩ | ⟨hnot, f, herror, -⟩
    · exact ⟨fun _ => ⟨hfits, hfew⟩, fun _ => hok⟩
    · exact ⟨fun hok => (nomatch herror.symm.trans hok), fun h => absurd hmany h.2⟩
    · exact ⟨fun hok => (nomatch herror.symm.trans hok), fun h => absurd h.1 hnot⟩
  · intro f hf
    rcases validate_cases keyword ds args with ⟨-, -, hok⟩ | ⟨hfits, hmany, herror⟩ | ⟨hnot, f', herror, hkind⟩
    · exact nomatch hok.symm.trans hf
    · obtain rfl := Except.error.inj (herror.symm.trans hf)
      exact ⟨⟨fun _ => ⟨hfits, hmany⟩, fun _ => rfl⟩, fun h => absurd rfl h⟩
    · obtain rfl := Except.error.inj (herror.symm.trans hf)
      exact ⟨⟨fun hform => (nomatch hkind.symm.trans hform), fun h => absurd h.1 hnot⟩, fun _ => hkind⟩
  · rintro before d after after' rfl hd
    exact validateFrom_append_recurring keyword _ _ hd before after after'

/-- A name and any number of other words, and a required argument behind them that is never asked for; without a recurring
argument the second word is one too many. -/
theorem validate_by_position_of_words :
    let name := Descriptor.ofText "name" "identifier"
    let words := (Descriptor.ofText "words" "string").makeRecurring
    let amount := Descriptor.ofText "amount" "number"
    let args : List Token := [⟨.identifier "a", "a"⟩, ⟨.identifier "b", "b"⟩]
    validate "put" [name, words, amount] args = validate "put" [name, words] args ∧
      ∃ f, validate "put" [name] args = .error f ∧ f.kind = .form ∧ Fits [name] args ∧ TooMany [name] args := by
  intro name words amount args
  have hbehind := (validate_by_position "put" [name, words, amount] args).2.2 [name] words [amount] [] rfl rfl
  have htoo : validate "put" [name] args = .error (.argumentsTooMany "put" 1 2) := rfl
  have hform := ((validate_by_position "put" [name] args).2.1 _ htoo).1.mp rfl
  exact ⟨hbehind, _, htoo, rfl, hform⟩

end LineScript
