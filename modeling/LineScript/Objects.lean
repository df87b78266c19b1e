/-
# Classes and objects

An object is a list of properties under an identity number.  One made from a class shows the defaults of the
class for properties it does not own; writing such a property gives the object its own copy, of the tag
that the default has.  An object without class may grow any property.  A property keeps the tag it was made with.

As for names, `Objects.Command` lists the operations and `Objects.Reachable` their histories.
-/
import LineScript.Roster
import LineScript.Fault

namespace LineScript

/-- A value with the tag that it is held to. -/
structure Property where
  tag : Tag
  value : Value
  deriving Repr, Inhabited

/-- The property that a value makes: it is stored in its normal form and sets the tag. -/
def Property.ofValue (v : Value) : Property := ⟨v.normalized.tag, v.normalized⟩

@[simp] theorem Property.ofValue_normalized (v : Value) : ofValue v.normalized = ofValue v := by
  simp only [ofValue, Value.normalized_normalized]

/-- A template for objects: properties with defaults. -/
structure ObjectClass where
  defaults : Roster Property := {}
  /-- Declared in the current pass. -/
  declared : Bool := true
  deriving Repr, Inhabited

/-- The values of the defaults. -/
def ObjectClass.properties (c : ObjectClass) : Roster Value := c.defaults.map (·.value)

/-- An object with the properties it owns. -/
structure Object where
  className : Option String := none
  own : Roster Property := {}
  deriving Repr, Inhabited

/-- The values of the properties that the object owns. -/
def Object.properties (o : Object) : Roster Value := o.own.map (·.value)

/-- All classes and objects of a script. -/
structure Objects where
  classes : Roster ObjectClass := {}
  objects : Array Object := #[]
  deriving Repr, Inhabited

namespace Objects

/-! ## Classes -/

/-- A class that is declared in the current pass. -/
def class? (s : Objects) (name : String) : Option ObjectClass :=
  (s.classes.find? name).filter (·.declared)

/-- Declare a class; one of an earlier pass starts again without properties. -/
def declareClass (s : Objects) (name : String) : Except Fault Objects :=
  match s.class? name with
  | some _ => .error (.classDeclared name)
  | none => .ok { s with classes := s.classes.enter name {} }

/-- A declared class is one that the pass did not have before, and it starts without defaults. -/
theorem declareClass_eq_ok {s s' : Objects} {name : String} (h : s.declareClass name = .ok s') :
    s.class? name = none ∧ s' = { s with classes := s.classes.enter name {} } := by
  unfold declareClass at h
  split at h
  · cases h
  · rename_i hfree
    cases h
    exact ⟨hfree, rfl⟩

/-- Give a class one more property. -/
def addClassProperty (s : Objects) (className name : String) (default : Value) :
    Except Fault Objects :=
  match s.classes.find? className with
  | none => .error (.classUnknown className)
  | some c =>
    if c.defaults.has name then .error (.classPropertyTaken className name)
    else
      let c := { c with defaults := c.defaults.enter name (.ofValue default) }
      .ok { s with classes := s.classes.enter className c }

/-- A class gains a property that it did not have before. -/
theorem addClassProperty_eq_ok {s s' : Objects} {className name : String} {default : Value}
    (h : s.addClassProperty className name default = .ok s') :
    ∃ c, s.classes.find? className = some c ∧ c.defaults.find? name = none ∧
      s' = { s with classes :=
        s.classes.enter className { c with defaults := c.defaults.enter name (.ofValue default) } } := by
  unfold addClassProperty at h
  split at h
  · cases h
  · rename_i c hc
    split at h
    · cases h
    · rename_i hfree
      cases h
      refine ⟨c, hc, ?_, rfl⟩
      simpa [Roster.has] using hfree

/-! ## Objects -/

/-- Make an object; the answer is its identity number. -/
def create (s : Objects) (className : Option String) : Except Fault (Nat × Objects) :=
  match className.filter fun name => (s.class? name).isNone with
  | some name => .error (.classUnknown name)
  | none => .ok (s.objects.size, { s with objects := s.objects.push ⟨className, {}⟩ })

/-- An object comes last, and nothing else changes. -/
theorem create_eq_ok {s s' : Objects} {className : Option String} {id : Nat}
    (h : s.create className = .ok (id, s')) :
    id = s.objects.size ∧ s' = { s with objects := s.objects.push ⟨className, {}⟩ } := by
  unfold create at h
  split at h
  · cases h
  · cases h
    exact ⟨rfl, rfl⟩

/-- The default that the class of an object has for a property. -/
def classDefault? (s : Objects) (o : Object) (name : String) : Option Property := do
  let className ← o.className
  let c ← s.classes.find? className
  c.defaults.find? name

/-- The property that an object shows under a name: its own, else the default of its class. -/
def shown? (s : Objects) (o : Object) (name : String) : Option Property :=
  o.own.find? name <|> s.classDefault? o name

/-- Read a property of an object. -/
def property (s : Objects) (id : Nat) (name : String) : Except Fault Value :=
  match s.objects[id]? with
  | none => .error (.noSuchObject id)
  | some o =>
    match s.shown? o name with
    | some p => .ok p.value
    | none => .error (.propertyMissing name)

/-- May an object take a new property of its own?  Its class must know the property, with this tag. -/
def checkNew (s : Objects) (o : Object) (name : String) (value : Value) : Except Fault Unit :=
  match o.className with
  | none => .ok ()
  | some className =>
    match s.classes.find? className with
    | none => .error (.classUnknown className)
    | some c =>
      match c.defaults.find? name with
      | none => .error (.classLacks className name)
      | some held =>
        if held.tag = value.tag then .ok ()
        else .error (.classPropertyType name className held.tag value.tag)

/-- What an object of a class takes is a property of the class, with the tag that it has there. -/
theorem checkNew_eq_ok {s : Objects} {o : Object} {name className : String} {value : Value}
    (h : s.checkNew o name value = .ok ()) (hclass : o.className = some className) :
    ∃ c held, s.classes.find? className = some c ∧ c.defaults.find? name = some held ∧ held.tag = value.tag := by
  unfold checkNew at h
  simp only [hclass] at h
  split at h
  · cases h
  · rename_i c hc
    split at h
    · cases h
    · rename_i held hheld
      split at h
      · exact ⟨c, held, hc, hheld, ‹_›⟩
      · cases h

/-- Enter a property among those that an object owns. -/
def enterOwn (s : Objects) (id : Nat) (o : Object) (name : String) (p : Property) : Objects :=
  { s with objects := s.objects.setIfInBounds id { o with own := o.own.enter name p } }

/-- Write a property of an object: in place where the object owns it, else as its own copy. -/
def setProperty (s : Objects) (id : Nat) (name : String) (value : Value) : Except Fault Objects :=
  let value := value.normalized
  match s.objects[id]? with
  | none => .error (.noSuchObject id)
  | some o =>
    match o.own.find? name with
    | some held =>
      if held.tag = value.tag then .ok (s.enterOwn id o name { held with value })
      else .error (.propertyType name held.tag value.tag)
    | none => do
      s.checkNew o name value
      return s.enterOwn id o name (.ofValue value)

/-- A write enters the property that the value makes, where the tag and the class allow it. -/
theorem setProperty_eq_ok {s s' : Objects} {id : Nat} {name : String} {value : Value}
    (h : s.setProperty id name value = .ok s') :
    ∃ o, s.objects[id]? = some o ∧ s' = s.enterOwn id o name (.ofValue value) ∧
      (∀ held, o.own.find? name = some held → held.tag = value.normalized.tag) ∧
      (o.own.find? name = none → s.checkNew o name value.normalized = .ok ()) := by
  unfold setProperty at h
  dsimp only at h
  split at h
  · cases h
  · rename_i o ho
    refine ⟨o, ho, ?_⟩
    cases hown : o.own.find? name with
    | some held =>
      simp only [hown] at h
      split at h
      · rename_i htag
        cases h
        refine ⟨by rw [htag]; rfl, ?_, by simp⟩
        rintro _ ⟨⟩
        exact htag
      · cases h
    | none =>
      simp only [hown] at h
      cases hcheck : s.checkNew o name value.normalized with
      | error fault =>
        rw [hcheck] at h
        cases h
      | ok _ =>
        rw [hcheck] at h
        cases h
        exact ⟨by rw [Property.ofValue_normalized], by simp, fun _ => rfl⟩

/-! ## Resets -/

/-- End the pass: classes can be declared again, objects stay. -/
def resetPass (s : Objects) : Objects :=
  { s with classes := s.classes.map fun c => { c with declared := false } }

/-! ## Histories -/

/-- The operations on a store, as data. -/
inductive Command
  | declareClass (name : String)
  | addClassProperty (className name : String) (default : Value)
  | create (className : Option String)
  | setProperty (id : Nat) (name : String) (value : Value)
  | resetPass
  | clear

/-- What an operation answers. -/
inductive Reply
  | done
  | created (id : Nat)
  deriving DecidableEq, Repr

/-- The answer of an operation with the store that follows it; after a fault the store is the old one. -/
def settle (s : Objects) : Except Fault (Reply × Objects) → Except Fault Reply × Objects
  | .ok (reply, s') => (.ok reply, s')
  | .error fault => (.error fault, s)

/-- Carry out an operation. -/
def perform (s : Objects) : Command → Except Fault Reply × Objects
  | .declareClass name => s.settle ((s.declareClass name).map (.done, ·))
  | .addClassProperty className name default =>
    s.settle ((s.addClassProperty className name default).map (.done, ·))
  | .create className => s.settle ((s.create className).map fun (id, s') => (.created id, s'))
  | .setProperty id name value => s.settle ((s.setProperty id name value).map (.done, ·))
  | .resetPass => (.ok .done, s.resetPass)
  | .clear => (.ok .done, {})

/-- The stores that some history of operations leads to from the empty one. -/
inductive Reachable : Objects → Prop
  | empty : Reachable {}
  | step {s : Objects} (c : Command) : Reachable s → Reachable (s.perform c).2

end Objects

end LineScript
