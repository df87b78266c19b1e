/-
# Objects in place

Each operation on classes and objects as the checks and the single writes that it is made of, in their order.

* `declareClassInPlace_apply`, …, `setPropertyInPlace_apply`: no check that can fail stands behind a write, and the
  writes come to what the operation does at once;
* `Command.carryOut_eq_perform`: so it is for every operation.
-/
import LineScript.Proofs.Stores.InPlace
import LineScript.Objects

namespace LineScript

namespace Objects

/-! ## Writes to classes and objects -/

/-- Write to the classes. -/
def onClasses (g : Roster ObjectClass → Roster ObjectClass) : InPlace Objects Unit :=
  modify fun s => { s with classes := g s.classes }

/-- Write to an object. -/
def onObject (id : Nat) (g : Object → Object) : InPlace Objects Unit :=
  modify fun s => { s with objects := s.objects.modify id g }

/-- Declare a class; one of an earlier pass loses its properties before it is marked. -/
def declareClassInPlace (name : String) : InPlace Objects Reply := do
  match (← get).classes.find? name with
  | none =>
    onClasses (·.enter name {})
    return .done
  | some c =>
    if c.declared then throw (.classDeclared name)
    else
      onClasses (·.change name fun c => { c with defaults := {} })
      onClasses (·.change name fun c => { c with declared := true })
      return .done

/-- Give a class one more property, behind those that it has. -/
def addClassPropertyInPlace (className name : String) (default : Value) : InPlace Objects Reply := do
  match (← get).classes.find? className with
  | none => throw (.classUnknown className)
  | some c =>
    if c.defaults.has name then throw (.classPropertyTaken className name)
    else
      onClasses (·.change className fun c => { c with defaults := c.defaults.push name (.ofValue default) })
      return .done

/-- Make an object and count afterwards. -/
def createInPlace (className : Option String) : InPlace Objects Reply := do
  let s ← get
  match className.filter fun name => (s.class? name).isNone with
  | some name => throw (.classUnknown name)
  | none =>
    modify fun s => { s with objects := s.objects.push ⟨className, {}⟩ }
    return .created ((← get).objects.size - 1)

/-- Write a property of an object.  For a property that the object does not own, it is looked up once more behind
the checks of its class. -/
def setPropertyInPlace (id : Nat) (name : String) (value : Value) : InPlace Objects Reply := do
  let value := value.normalized
  match (← get).objects[id]? with
  | none => throw (.noSuchObject id)
  | some o =>
    match o.own.find? name with
    | some held =>
      if held.tag = value.tag then
        onObject id fun o => { o with own := o.own.change name fun p => { p with value } }
        return .done
      else throw (.propertyType name held.tag value.tag)
    | none =>
      MonadExcept.ofExcept ((← get).checkNew o name value)
      match (← get).objects[id]? with
      | none => throw (.noSuchObject id)
      | some _ =>
        onObject id fun o => { o with own := o.own.push name (.ofValue value) }
        return .done

/-- Carry out an operation in place; those that cannot fail change the store at once. -/
def Command.carryOut : Command → InPlace Objects Reply
  | .declareClass name => declareClassInPlace name
  | .addClassProperty className name default => addClassPropertyInPlace className name default
  | .create className => createInPlace className
  | .setProperty id name value => setPropertyInPlace id name value
  | .resetPass => do modify (·.resetPass); return .done
  | .clear => do set ({} : Objects); return .done

variable {α : Type}

theorem onClasses_bind_apply (g : Roster ObjectClass → Roster ObjectClass) (k : Unit → InPlace Objects α)
    (s : Objects) : (onClasses g >>= k) s = k () { s with classes := g s.classes } := rfl

/-- A write to an object sets what it makes of it. -/
theorem onObject_bind_apply {s : Objects} {id : Nat} {o : Object} (h : s.objects[id]? = some o)
    (g : Object → Object) (k : Unit → InPlace Objects α) :
    (onObject id g >>= k) s = k () { s with objects := s.objects.setIfInBounds id (g o) } := by
  have hmodify : s.objects.modify id g = s.objects.setIfInBounds id (g o) := by
    apply Array.ext_getElem?
    intro i
    rw [Array.getElem?_modify, Array.getElem?_setIfInBounds]
    split
    · rename_i hi
      rw [← hi, h, if_pos (Array.getElem?_eq_some_iff.mp h).1]
      rfl
    · rfl
  rw [← hmodify]
  rfl

/-- A class of an earlier pass that loses its properties and is marked is a new one. -/
theorem declareClassInPlace_apply (name : String) (s : Objects) :
    declareClassInPlace name s = s.perform (.declareClass name) := by
  unfold declareClassInPlace perform declareClass class?
  dsimp only
  rw [InPlace.get_bind_apply]
  cases hfound : s.classes.find? name with
  | none => rfl
  | some c =>
    obtain ⟨defaults, declared⟩ := c
    cases declared with
    | true => rfl
    | false =>
      dsimp only
      rw [if_neg Bool.false_ne_true, onClasses_bind_apply, onClasses_bind_apply, Roster.change_eq_enter hfound,
        Roster.change_enter]
      rfl

/-- A new property stands behind those that the class has. -/
theorem addClassPropertyInPlace_apply (className name : String) (default : Value) (s : Objects) :
    addClassPropertyInPlace className name default s = s.perform (.addClassProperty className name default) := by
  unfold addClassPropertyInPlace perform addClassProperty
  dsimp only
  rw [InPlace.get_bind_apply]
  cases hfound : s.classes.find? className with
  | none => rfl
  | some c =>
    dsimp only
    by_cases htaken : c.defaults.has name = true
    · rw [if_pos htaken, if_pos htaken]
      rfl
    · have hfree : c.defaults.find? name = none := by simpa [Roster.has] using htaken
      rw [if_neg htaken, if_neg htaken, onClasses_bind_apply, Roster.change_eq_enter hfound,
        ← Roster.enter_eq_push hfree]
      rfl

/-- The number of an object that has been pushed is how many there were before. -/
theorem createInPlace_apply (className : Option String) (s : Objects) :
    createInPlace className s = s.perform (.create className) := by
  unfold createInPlace perform create
  dsimp only
  rw [InPlace.get_bind_apply]
  cases className.filter fun name => (s.class? name).isNone with
  | some name => rfl
  | none =>
    dsimp only
    rw [InPlace.modify_bind_apply, InPlace.get_bind_apply, Array.size_push]
    rfl

/-- The checks of a write stand before it, and the object is still there when it is looked up again. -/
theorem setPropertyInPlace_apply (id : Nat) (name : String) (value : Value) (s : Objects) :
    setPropertyInPlace id name value s = s.perform (.setProperty id name value) := by
  unfold setPropertyInPlace perform setProperty enterOwn
  dsimp only
  rw [InPlace.get_bind_apply]
  cases hobject : s.objects[id]? with
  | none => rfl
  | some o =>
    dsimp only
    cases hown : o.own.find? name with
    | some held =>
      dsimp only
      by_cases htag : held.tag = value.normalized.tag
      · rw [if_pos htag, if_pos htag, onObject_bind_apply hobject, Roster.change_eq_enter hown]
        rfl
      · rw [if_neg htag, if_neg htag]
        rfl
    | none =>
      dsimp only
      rw [InPlace.get_bind_apply, InPlace.ofExcept_bind_apply]
      cases s.checkNew o name value.normalized with
      | error f => rfl
      | ok _ =>
        dsimp only
        rw [InPlace.get_bind_apply, hobject]
        dsimp only
        rw [onObject_bind_apply hobject, ← Roster.enter_eq_push hown]
        rfl

/-- **An operation in place does what it does at once.** -/
theorem Command.carryOut_eq_perform (c : Command) (s : Objects) : c.carryOut s = s.perform c := by
  cases c with
  | declareClass name => exact declareClassInPlace_apply name s
  | addClassProperty className name default => exact addClassPropertyInPlace_apply className name default s
  | create className => exact createInPlace_apply className s
  | setProperty id name value => exact setPropertyInPlace_apply id name value s
  | resetPass => rfl
  | clear => rfl

end Objects

end LineScript
