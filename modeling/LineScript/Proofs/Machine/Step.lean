/-
# Laws of steps

How a composed step of the machine runs from a given state, how it ends there (`Act.Ends`), what it keeps
(`Act.Keeps`), and what it means that two steps agree.

What a step keeps is a relation between the machine before and after it; steps that only look keep every relation that
overlooks events and contexts (`Machine.Overlooking`).

A relation between machines is kept by a pair of steps when, from related machines, both answer the same
and lead to related machines again (`Act.Agree`).  Each way of composing steps keeps agreement, so that
for a statement only its parts have to be looked at.
-/
import LineScript.Machine.Host

namespace LineScript.Act

variable {α β : Type}

/-! ## Running composed steps -/

@[simp] theorem pure_apply (x : α) (m : Machine) : (pure x : Act α) m = (.ok x, m) := rfl

@[simp] theorem throw_apply (f : Fault) (m : Machine) : (throw f : Act α) m = (.error f, m) := rfl

@[simp] theorem ofExcept_apply (e : Except Fault α) (m : Machine) : ofExcept e m = (e, m) := rfl

@[simp] theorem get_apply (m : Machine) : (get : Act Machine) m = (.ok m, m) := rfl

@[simp] theorem set_apply (s m : Machine) : (set s : Act PUnit) m = (.ok ⟨⟩, s) := rfl

@[simp] theorem modify_apply (g : Machine → Machine) (m : Machine) :
    (modify g : Act PUnit) m = (.ok ⟨⟩, g m) := rfl

/-- A sequence stops at the first fault. -/
theorem bind_apply (a : Act α) (k : α → Act β) (m : Machine) :
    (a >>= k) m = match a m with
      | (.ok x, m') => k x m'
      | (.error f, m') => (.error f, m') := by
  show ExceptT.bindCont k (a m).1 (a m).2 = _
  rcases a m with ⟨_ | _, _⟩ <;> rfl

/-- A sequence whose first step succeeds goes on from where that step leads. -/
theorem bind_of_ok {a : Act α} {k : α → Act β} {m m' : Machine} {x : α} (h : a m = (.ok x, m')) :
    (a >>= k) m = k x m' := by
  rw [bind_apply, h]

/-- A sequence whose first step fails ends there. -/
theorem bind_of_error {a : Act α} {k : α → Act β} {m m' : Machine} {f : Fault}
    (h : a m = (.error f, m')) : (a >>= k) m = (.error f, m') := by
  rw [bind_apply, h]

/-- Sequences whose first steps end in the same way do. -/
theorem bind_congr_left {a a' : Act α} {m : Machine} (h : a m = a' m) (k : α → Act β) :
    (a >>= k) m = (a' >>= k) m := by
  rw [bind_apply, bind_apply, h]

/-- A sequence that succeeds has run both of its parts. -/
theorem bind_eq_ok {a : Act α} {k : α → Act β} {m m' : Machine} {y : β}
    (h : (a >>= k) m = (.ok y, m')) : ∃ x s, a m = (.ok x, s) ∧ k x s = (.ok y, m') := by
  rw [bind_apply] at h
  rcases ha : a m with ⟨f | x, s⟩
  · rw [ha] at h
    cases h
  · rw [ha] at h
    exact ⟨x, s, rfl, h⟩

theorem ofExcept_eq_ok {e : Except Fault α} {m m' : Machine} {x : α}
    (h : ofExcept e m = (.ok x, m')) : e = .ok x ∧ m = m' := by
  rw [ofExcept_apply] at h
  exact ⟨congrArg Prod.fst h, congrArg Prod.snd h⟩

@[simp] theorem get_bind_apply (k : Machine → Act β) (m : Machine) :
    ((get : Act Machine) >>= k) m = k m m := rfl

@[simp] theorem modify_bind_apply (g : Machine → Machine) (k : PUnit → Act β) (m : Machine) :
    ((modify g : Act PUnit) >>= k) m = k ⟨⟩ (g m) := rfl

/-- A handler runs where the fault has led. -/
theorem tryCatch_apply (a : Act α) (handle : Fault → Act α) (m : Machine) :
    (tryCatch a handle) m = match a m with
      | (.ok x, m') => (.ok x, m')
      | (.error f, m') => handle f m' := by
  rcases h : a m with ⟨f | x, s⟩
  · simp only [tryCatch, tryCatchThe, MonadExceptOf.tryCatch, ExceptT.tryCatch, ExceptT.mk, bind,
      StateT.bind, h]
  · simp only [tryCatch, tryCatchThe, MonadExceptOf.tryCatch, ExceptT.tryCatch, ExceptT.mk, bind,
      StateT.bind, h]
    rfl

/-- What follows in any case leaves the answer alone. -/
theorem finally_apply (a : Act α) (g : Machine → Machine) (m : Machine) :
    (a.finally g) m = ((a m).1, g (a m).2) := rfl

/-! ## Endings -/

/-- How a step ends: when it succeeds, `Q` holds of its answer and of where it leads, and when it fails, `E` does of
the fault and of where that has led.  It is only opened by the rules below, since the step that it is about can be
costly to unfold. -/
@[irreducible] def Ends (a : Act α) (m : Machine) (Q : α → Machine → Prop) (E : Fault → Machine → Prop) : Prop :=
  match a m with
  | (.ok x, k) => Q x k
  | (.error f, k) => E f k

section Ends

variable {m : Machine} {Q : α → Machine → Prop} {E : Fault → Machine → Prop}

theorem ends_pure {x : α} (h : Q x m) : Ends (pure x) m Q E := by
  unfold Ends
  exact h

theorem ends_throw {f : Fault} (h : E f m) : Ends (throw f : Act α) m Q E := by
  unfold Ends
  exact h

theorem ends_ofExcept {e : Except Fault α} (hok : ∀ x, e = .ok x → Q x m)
    (herror : ∀ f, e = .error f → E f m) : Ends (ofExcept e) m Q E := by
  cases e with
  | ok x => exact ends_pure (hok x rfl)
  | error f => exact ends_throw (herror f rfl)

theorem ends_set {k : Machine} {Q : PUnit → Machine → Prop} (h : Q ⟨⟩ k) : Ends (set k : Act PUnit) m Q E := by
  unfold Ends
  exact h

theorem ends_modify {g : Machine → Machine} {Q : PUnit → Machine → Prop} (h : Q ⟨⟩ (g m)) :
    Ends (modify g : Act PUnit) m Q E := by
  unfold Ends
  exact h

theorem ends_get {k : Machine → Act α} (h : Ends (k m) m Q E) : Ends (get >>= k) m Q E := by
  unfold Ends at h ⊢
  exact h

/-- Steps that do the same, each from its machine, end in the same way. -/
theorem Ends.of_apply_eq {a a' : Act α} {m' : Machine} (h : Ends a' m' Q E) (ha : a m = a' m') :
    Ends a m Q E := by
  unfold Ends at h ⊢
  rwa [ha]

/-- What is known of a success. -/
theorem ends_of_ok {a : Act α} (h : ∀ x k, a m = (.ok x, k) → Q x k) : Ends a m Q fun _ _ => True := by
  unfold Ends
  split
  · rename_i x k ha
    exact h x k ha
  · trivial

/-- A sequence ends as its second part does wherever the first has led. -/
theorem ends_bind {a : Act β} {k : β → Act α} {R : β → Machine → Prop} (ha : Ends a m R E)
    (hk : ∀ x m', R x m' → Ends (k x) m' Q E) : Ends (a >>= k) m Q E := by
  rcases h : a m with ⟨f | x, m'⟩
  · unfold Ends at ha ⊢
    rw [h] at ha
    rw [bind_of_error h]
    exact ha
  · unfold Ends at ha
    rw [h] at ha
    exact (hk x m' ha).of_apply_eq (bind_of_ok h)

/-- Behind a change of the state the rest ends as it does there. -/
theorem ends_modify_bind {g : Machine → Machine} {k : PUnit → Act α} (h : Ends (k ⟨⟩) (g m) Q E) :
    Ends (modify g >>= k) m Q E :=
  h.of_apply_eq (modify_bind_apply g k m)

/-- What looks something up ends as it does with what is found. -/
theorem ends_ofExcept_bind {e : Except Fault β} {k : β → Act α}
    (hok : ∀ x, e = .ok x → Ends (k x) m Q E) (herror : ∀ f, e = .error f → E f m) :
    Ends (ofExcept e >>= k) m Q E := by
  refine ends_bind (R := fun x m' => e = .ok x ∧ m' = m) ?_ ?_
  · exact ends_ofExcept (fun x hx => ⟨hx, rfl⟩) herror
  · rintro x _ ⟨hx, rfl⟩
    exact hok x hx

theorem Ends.mono {a : Act α} {Q' : α → Machine → Prop} {E' : Fault → Machine → Prop} (h : Ends a m Q E)
    (hQ : ∀ x k, Q x k → Q' x k) (hE : ∀ f k, E f k → E' f k) : Ends a m Q' E' := by
  unfold Ends at h ⊢
  rcases ha : a m with ⟨f | x, k⟩
  · rw [ha] at h
    exact hE f k h
  · rw [ha] at h
    exact hQ x k h

/-- What holds at the end of a step by two reasons, holds of it together. -/
theorem Ends.and {a : Act α} {Q' : α → Machine → Prop} {E' : Fault → Machine → Prop} (h : Ends a m Q E)
    (h' : Ends a m Q' E') : Ends a m (fun x k => Q x k ∧ Q' x k) (fun f k => E f k ∧ E' f k) := by
  unfold Ends at h h' ⊢
  rcases ha : a m with ⟨f | x, k⟩
  · rw [ha] at h h'
    exact ⟨h, h'⟩
  · rw [ha] at h h'
    exact ⟨h, h'⟩

theorem Ends.of_ok {a : Act α} {x : α} {k : Machine} (h : Ends a m Q E) (ha : a m = (.ok x, k)) : Q x k := by
  unfold Ends at h
  rwa [ha] at h

theorem Ends.of_error {a : Act α} {f : Fault} {k : Machine} (h : Ends a m Q E)
    (ha : a m = (.error f, k)) : E f k := by
  unfold Ends at h
  rwa [ha] at h

/-- What holds of where a step leads, whether it succeeds or fails. -/
theorem ends_of_snd {a : Act α} {P : Machine → Prop} (h : P (a m).2) : Ends a m (fun _ k => P k) fun _ k => P k := by
  unfold Ends
  rcases ha : a m with ⟨f | x, k⟩
  · rw [ha] at h
    exact h
  · rw [ha] at h
    exact h

theorem Ends.snd {a : Act α} {P : Machine → Prop} (h : Ends a m (fun _ k => P k) fun _ k => P k) : P (a m).2 := by
  rcases ha : a m with ⟨f | x, k⟩
  · exact h.of_error ha
  · exact h.of_ok ha

theorem ends_finally {a : Act α} {g : Machine → Machine}
    (h : Ends a m (fun x k => Q x (g k)) (fun f k => E f (g k))) : Ends (a.finally g) m Q E := by
  unfold Ends at h ⊢
  rw [finally_apply]
  rcases ha : a m with ⟨f | x, k⟩
  · rw [ha] at h
    exact h
  · rw [ha] at h
    exact h

end Ends

/-! ## What steps keep -/

/-- A relation between a machine and what becomes of it that holds when nothing happens and goes on from step to
step. -/
class Lasting (R : Machine → Machine → Prop) : Prop where
  refl (m : Machine) : R m m
  trans {m k l : Machine} : R m k → R k l → R m l

/-- A step that keeps a relation, whether it succeeds or fails. -/
def Keeps (R : Machine → Machine → Prop) (a : Act α) : Prop :=
  ∀ m, Ends a m (fun _ k => R m k) fun _ k => R m k

section Keeps

variable {R : Machine → Machine → Prop} [hR : Lasting R]

theorem keeps_pure (x : α) : Keeps R (pure x : Act α) := fun m => ends_pure (hR.refl m)

theorem keeps_throw (f : Fault) : Keeps R (throw f : Act α) := fun m => ends_throw (hR.refl m)

/-- Behind a fault nothing runs. -/
theorem keeps_throw_bind (f : Fault) (k : α → Act β) : Keeps R ((throw f : Act α) >>= k) :=
  fun m => ends_bind (R := fun _ _ => False) (ends_throw (hR.refl m)) fun _ _ => False.elim

theorem keeps_ofExcept (e : Except Fault α) : Keeps R (ofExcept e) :=
  fun m => ends_ofExcept (fun _ _ => hR.refl m) fun _ _ => hR.refl m

omit hR in
theorem keeps_modify {g : Machine → Machine} (h : ∀ m, R m (g m)) : Keeps R (modify g : Act PUnit) :=
  fun m => ends_modify (h m)

omit hR in
theorem keeps_get {k : Machine → Act α} (h : ∀ m, Keeps R (k m)) : Keeps R (get >>= k) :=
  fun m => ends_get (h m m)

theorem keeps_bind {a : Act α} {k : α → Act β} (ha : Keeps R a) (hk : ∀ x, Keeps R (k x)) :
    Keeps R (a >>= k) :=
  fun m => ends_bind (ha m) fun x _ hm => (hk x _).mono (fun _ _ => hR.trans hm) fun _ _ => hR.trans hm

end Keeps

/-! ## Operations on the stores -/

end LineScript.Act

namespace LineScript.Machine

open Act

variable {α : Type}

/-- A change of the names that succeeds changes nothing else, and one that fails changes nothing. -/
theorem ends_onSymbols (f : Symbols → Except Fault Symbols) (m : Machine) :
    Ends (onSymbols f) m (fun _ k => ∃ s, f m.symbols = .ok s ∧ k = { m with symbols := s })
      fun e k => f m.symbols = .error e ∧ k = m :=
  ends_get (ends_ofExcept_bind (fun s hs => ends_set ⟨s, hs, rfl⟩) fun _ he => ⟨he, rfl⟩)

theorem ends_onSymbolsReply (f : Symbols → Except Fault (α × Symbols)) (m : Machine) :
    Ends (onSymbolsReply f) m (fun x k => ∃ s, f m.symbols = .ok (x, s) ∧ k = { m with symbols := s })
      fun e k => f m.symbols = .error e ∧ k = m :=
  ends_get (ends_ofExcept_bind
    (fun (_, s) hs => ends_bind (ends_set rfl) fun _ _ hk => ends_pure ⟨s, hs, hk⟩)
    fun _ he => ⟨he, rfl⟩)

theorem ends_onObjects (f : Objects → Except Fault Objects) (m : Machine) :
    Ends (onObjects f) m (fun _ k => ∃ o, f m.objects = .ok o ∧ k = { m with objects := o })
      fun e k => f m.objects = .error e ∧ k = m :=
  ends_get (ends_ofExcept_bind (fun o ho => ends_set ⟨o, ho, rfl⟩) fun _ he => ⟨he, rfl⟩)

theorem ends_createObject (className : Option String) (m : Machine) :
    Ends (createObject className) m
      (fun id k => ∃ o, m.objects.create className = .ok (id, o) ∧ k = { m with objects := o })
      fun e k => m.objects.create className = .error e ∧ k = m :=
  ends_get (ends_ofExcept_bind
    (fun (_, o) ho => ends_bind (ends_set rfl) fun _ _ hk => ends_pure ⟨o, ho, hk⟩)
    fun _ he => ⟨he, rfl⟩)

/-- Looking a name up changes nothing. -/
theorem ends_lookup (name : String) (reach : Reach) (m : Machine) :
    Ends (lookup name reach) m (fun v k => m.symbols.lookup name reach = .ok v ∧ k = m)
      fun e k => m.symbols.lookup name reach = .error e ∧ k = m :=
  ends_get (ends_ofExcept (fun _ hv => ⟨hv, rfl⟩) fun _ he => ⟨he, rfl⟩)

/-- A warning lets the host hear of it, or it is a fault in strict mode. -/
theorem ends_warn (c : Caution) (m : Machine) :
    Ends (warn c) m (fun _ k => ∃ e, k = m.emit e) fun e k => e = .strict c ∧ k = m := by
  refine ends_get ?_
  split
  · exact ends_throw ⟨rfl, rfl⟩
  · exact ends_set ⟨_, rfl⟩

/-- A fault that ends the run leaves a report, and besides that only the host may hear of it. -/
theorem fail_eq (f : Fault) (m : Machine) :
    ∃ events, m.fail f = { m with mode := .failed, lastReport := some (m.report f), events := events } := by
  unfold fail
  dsimp only
  split
  · exact ⟨m.events.push (.failed (m.report f)), rfl⟩
  · exact ⟨m.events, rfl⟩

/-- The context of a level that is there can be read. -/
theorem ends_context {depth : Nat} {m : Machine} (h : depth < m.contexts.length) :
    Ends (context depth) m (fun _ k => k = m) fun _ _ => False := by
  refine ends_get ?_
  rw [List.getElem?_eq_getElem h]
  exact ends_pure rfl

/-! ## What looking keeps -/

/-- A lasting relation that overlooks events and contexts. -/
class Overlooking (R : Machine → Machine → Prop) : Prop extends Lasting R where
  emit (m : Machine) (e : Event) : R m (m.emit e)
  contexts (m : Machine) (cs : List Context) : R m { m with contexts := cs }

section Overlooking

variable {R : Machine → Machine → Prop} [hR : Overlooking R]

theorem keeps_warn (c : Caution) : Keeps R (warn c) := by
  refine fun m => (ends_warn c m).mono ?_ ?_
  · rintro _ _ ⟨e, rfl⟩
    exact hR.emit m e
  · rintro _ _ ⟨-, rfl⟩
    exact hR.refl _

theorem keeps_disallow (c : Caution) : Keeps R (disallow c) := by
  refine keeps_get fun m => ?_
  split
  · exact keeps_throw _
  · exact keeps_warn c

theorem keeps_lookup (name : String) (reach : Reach) : Keeps R (lookup name reach) :=
  keeps_get fun _ => keeps_ofExcept _

theorem keeps_context (depth : Nat) : Keeps R (context depth) :=
  keeps_get fun _ => by
    split
    · exact keeps_pure _
    · exact keeps_throw _

theorem keeps_readParameter (function text : String) (seen : List Parameter) :
    Keeps R (readParameter function text seen) := by
  unfold readParameter
  rcases Text.cutString ':' text with _ | ⟨name, type⟩
  · dsimp only
    split
    · exact keeps_throw_bind _ _
    · exact keeps_bind (keeps_warn _) fun _ => keeps_pure _
  · dsimp only
    split
    · exact keeps_throw_bind _ _
    · split
      · exact keeps_bind (keeps_warn _) fun _ => keeps_pure _
      · exact keeps_pure _
      · exact keeps_get fun _ => keeps_bind (keeps_ofExcept _) fun _ => keeps_pure _

theorem keeps_readParameters (function : String) (seen : List Parameter) (args : List Token) :
    Keeps R (readParameters function seen args) := by
  induction args generalizing seen with
  | nil => exact keeps_pure _
  | cons arg rest ih => exact keeps_bind (keeps_readParameter _ _ _) fun p => ih _

theorem keeps_runJump (i : Invocation) : Keeps R (runJump i) :=
  keeps_get fun _ => keeps_bind (keeps_ofExcept _) fun _ => keeps_pure _

theorem keeps_runCondition (i : Invocation) (depth : Nat) : Keeps R (runCondition i depth) :=
  keeps_get fun _ => keeps_bind (keeps_ofExcept _) fun _ => keeps_bind (keeps_context _) fun _ =>
    keeps_bind (keeps_modify fun m => hR.contexts m _) fun _ => keeps_pure _

theorem keeps_runOtherwise (depth : Nat) : Keeps R (runOtherwise depth) := by
  refine keeps_bind (keeps_context _) fun c => ?_
  dsimp only
  split
  · exact keeps_throw_bind _ _
  · exact keeps_pure _

end Overlooking

/-! ## Statements in parts -/

/-- The end of an `object` statement, which has its object. -/
def declareObject (name : String) (id : Nat) : Act Next := do
  onSymbols (·.declare name (some (.object id)) false)
  modify ({ · with openObject := some id })
  return .following

/-- An `object` statement takes the object that the variable still holds, or makes one. -/
theorem runObject_apply (i : Invocation) (m : Machine) :
    runObject i m = (Act.ofExcept (i.text 0) >>= fun name =>
      Act.ofExcept (classNamed i name) >>= fun className =>
        match keptObject? m.symbols name with
        | some id => declareObject name id
        | none => createObject className >>= declareObject name) m := by
  unfold runObject
  rw [bind_apply, bind_apply, ofExcept_apply]
  cases i.text 0 with
  | error f => rfl
  | ok name =>
    dsimp only
    rw [bind_apply, bind_apply, ofExcept_apply]
    cases classNamed i name with
    | error f => rfl
    | ok className =>
      dsimp only
      rw [get_bind_apply]
      cases keptObject? m.symbols name <;> rfl

end LineScript.Machine

namespace LineScript.Act

variable {α β : Type}

/-! ## Agreement -/

/-- Two steps agree along a relation: from related machines they answer the same and lead to related
machines. -/
def Agree (R : Machine → Machine → Prop) (a a' : Act α) : Prop :=
  ∀ m m', R m m' → (a m).1 = (a' m').1 ∧ R (a m).2 (a' m').2

variable {R : Machine → Machine → Prop}

theorem agree_pure (x : α) : Agree R (pure x : Act α) (pure x) := fun _ _ h => ⟨rfl, h⟩

theorem agree_throw (f : Fault) : Agree R (throw f : Act α) (throw f) := fun _ _ h => ⟨rfl, h⟩

theorem agree_ofExcept (e : Except Fault α) : Agree R (ofExcept e) (ofExcept e) :=
  fun _ _ h => ⟨rfl, h⟩

/-- Changes of the state agree when they keep the relation. -/
theorem agree_modify {g g' : Machine → Machine} (h : ∀ m m', R m m' → R (g m) (g' m')) :
    Agree R (modify g : Act PUnit) (modify g') :=
  fun m m' hm => ⟨rfl, h m m' hm⟩

/-- Steps that only look at the state agree when what they do with related states agrees. -/
theorem agree_get {k k' : Machine → Act β} (h : ∀ m m', R m m' → Agree R (k m) (k' m')) :
    Agree R (get >>= k) (get >>= k') :=
  fun m m' hm => h m m' hm m m' hm

/-- Sequences of agreeing steps agree. -/
theorem agree_bind {a a' : Act α} {k k' : α → Act β} (ha : Agree R a a')
    (hk : ∀ x, Agree R (k x) (k' x)) : Agree R (a >>= k) (a' >>= k') := by
  intro m m' hm
  obtain ⟨hans, hR⟩ := ha m m' hm
  rw [bind_apply, bind_apply]
  rcases h : a m with ⟨f | x, s⟩ <;> rcases h' : a' m' with ⟨f' | x', s'⟩ <;>
    rw [h, h'] at hans hR
  · exact ⟨congrArg Except.error (Except.error.inj hans), hR⟩
  · cases hans
  · cases hans
  · obtain rfl : x = x' := Except.ok.inj hans
    exact hk x s s' hR

/-- Behind a fault nothing runs, so nothing has to agree. -/
theorem agree_throw_bind (f : Fault) (k k' : α → Act β) :
    Agree R ((throw f : Act α) >>= k) ((throw f : Act α) >>= k') :=
  fun _ _ h => ⟨rfl, h⟩

/-- What follows in any case keeps agreement. -/
theorem agree_finally {a a' : Act α} {g g' : Machine → Machine} (ha : Agree R a a')
    (hg : ∀ m m', R m m' → R (g m) (g' m')) : Agree R (a.finally g) (a'.finally g') := by
  intro m m' hm
  obtain ⟨hans, hR⟩ := ha m m' hm
  exact ⟨hans, hg _ _ hR⟩

/-- Handlers of faults keep agreement. -/
theorem agree_tryCatch {a a' : Act α} {k k' : Fault → Act α} (ha : Agree R a a')
    (hk : ∀ f, Agree R (k f) (k' f)) : Agree R (tryCatch a k) (tryCatch a' k') := by
  intro m m' hm
  obtain ⟨hans, hR⟩ := ha m m' hm
  rw [tryCatch_apply, tryCatch_apply]
  rcases h : a m with ⟨f | x, s⟩ <;> rcases h' : a' m' with ⟨f' | x', s'⟩ <;>
    rw [h, h'] at hans hR
  · obtain rfl : f = f' := Except.error.inj hans
    exact hk f s s' hR
  · cases hans
  · cases hans
  · exact ⟨congrArg Except.ok (Except.ok.inj hans), hR⟩

end LineScript.Act
