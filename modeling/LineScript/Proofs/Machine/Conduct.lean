/-
# Keywords that look at what they get

The keywords of registered extensions see of the machine what a host can look at.  What can be said of them can be said
of keywords that see all of it, and that belong to extensions which do one thing or another.  `Manner` is how the
extensions of a machine behave, and `Machine.callAs` runs keywords of any manner, one in another; the code that the
extensions come with is one manner among them (`callAs_own`).

What can be said of all manners is said along the registry.  No keyword leaves it changed (`registry_callAs`), and what
runs on a registry makes no calls but those of registered keywords on that very registry (`Steady.callsAt`).
-/
import LineScript.Proofs.Machine.Requests

namespace LineScript

open Act

/-! ## Manners -/

/-- How the keywords of extensions behave, each at its calls and with all of the machine to see. -/
abbrev Manner := Extension → Invocation → Machine → Conduct Machine

/-- Code that sees all of the machine, and looks at this view of it. -/
def Conduct.through {View : Type} (view : Machine → View) : Conduct View → Conduct Machine
  | answer result => answer result
  | ask r next => ask r fun result m => (next result (view m)).through view

/-- The manner of the extensions that behave as their own code says. -/
def Manner.own : Manner := fun e i m => (e.call i m.look).through Machine.look

namespace Machine

/-- The machine as a keyword of an extension finds it, with the registry that is left without that extension. -/
def entered (e : Extension) (i : Invocation) (r : Registry) (m : Machine) : Machine :=
  { m with registry := r }.emit (.called e.id i)

/-- Run a keyword of the extension in a slot, whatever keywords do.  They nest at most `bound` deep. -/
def callAs (manner : Manner) : (bound : Nat) → Invoke
  | 0, owner, _ => do
    let _ ← takeExtension owner
    modify (restoreExtension owner)
  | bound + 1, owner, i => do
    let e ← takeExtension owner
    let body : Act Unit := do
      modify (emit (.called e.id i))
      runConduct id (callAs manner bound) (manner e i (← get))
    body.finally (restoreExtension owner)

theorem runConduct_through {View : Type} (view : Machine → View) (inv : Invoke) (c : Conduct View) :
    runConduct id inv (c.through view) = runConduct view inv c := by
  induction c with
  | answer result => rfl
  | ask r next ih =>
    funext m
    exact congrFun (ih _ _) _

/-- **What extensions come with is one manner among others.** -/
theorem callAs_own (bound : Nat) : callAs .own bound = invoke bound := by
  induction bound with
  | zero => rfl
  | succ bound ih =>
    funext owner i
    have hbody : ∀ e : Extension, (do
        modify (emit (.called e.id i))
        runConduct id (invoke bound) (Manner.own e i (← get)) : Act Unit) =
        (do
          modify (emit (.called e.id i))
          runConduct look (invoke bound) (e.call i (← get).look)) := by
      intro e
      simp only [Manner.own, runConduct_through]
    rw [callAs, invoke, ih]
    simp only [hbody]

section Calls

variable {manner : Manner} {bound owner : Nat} {i : Invocation} {m : Machine}

/-- An extension that is not in its slot is not called, and nothing changes. -/
theorem callAs_of_refused {f : Fault} (h : m.registry.take owner = .error f) :
    callAs manner bound owner i m = (.error f, m) := by
  cases bound <;> exact bind_of_error (takeExtension_of_error h)

/-- An extension that comes out of its slot runs, and then it is put back. -/
theorem callAs_of_taken {e : Extension} {r : Registry} (h : m.registry.take owner = .ok (e, r)) :
    callAs manner (bound + 1) owner i m =
      let ended := runConduct id (callAs manner bound) (manner e i (m.entered e i r)) (m.entered e i r)
      (ended.1, ended.2.restoreExtension owner) := by
  rw [callAs, bind_of_ok (takeExtension_of_ok h)]
  rfl

end Calls

end Machine

/-! ## Along a registry -/

/-- Requests leave the registry alone. -/
theorem requestCongruence_registry (r : Registry) : RequestCongruence fun m m' => m' = m ∧ m.registry = r :=
  (congruence_registry r).toRequests fun _ hr => hr

/-- Do two steps do the same on a registry, and leave it alone? -/
abbrev AgreeOn {α : Type} (r : Registry) (a a' : Act α) : Prop := Agree (fun m m' => m' = m ∧ m.registry = r) a a'

/-- Does a step do the same on a registry, and leave it alone, with keywords that do so where they are registered? -/
def Steady {α : Type} (r : Registry) (a : Invoke → Act α) : Prop :=
  ∀ inv inv' : Invoke, (∀ keyword owned, r.keywords.find? keyword = some owned → ∀ i,
    AgreeOn r (inv owned.owner i) (inv' owned.owner i)) → AgreeOn r (a inv) (a inv')

open Machine

theorem steady_runCursorLine (r : Registry) : Steady r runCursorLine := fun _ _ hinv =>
  (requestCongruence_registry r).agree_runCursorLine fun h _ _ hfound => hinv _ _ (h.2 ▸ hfound)

theorem steady_executeWith (r : Registry) (text : String) : Steady r (executeWith · text) := fun _ _ hinv =>
  (requestCongruence_registry r).agree_executeWith (fun h _ _ hfound => hinv _ _ (h.2 ▸ hfound)) text

/-- **Whatever a keyword does leaves the registry alone**, since it sees the same of equal machines. -/
theorem steady_runConduct (r : Registry) (c : Conduct Machine) : Steady r fun inv => runConduct id inv c :=
  fun _ _ hinv => (requestCongruence_registry r).agree_runConduct (S := Eq) (fun h _ _ hfound => hinv _ _ (h.2 ▸ hfound))
    (fun h => h.1.symm) c.like_self

namespace Machine

/-- **No call leaves the registry changed**, by induction on how deep keywords may nest. -/
theorem registry_callAs (manner : Manner) (bound owner : Nat) (i : Invocation) (m : Machine) :
    (callAs manner bound owner i m).2.registry = m.registry := by
  induction bound generalizing owner i m with
  | zero =>
    cases htake : m.registry.take owner with
    | error f => rw [callAs_of_refused htake]
    | ok taken =>
      rw [callAs, bind_of_ok (takeExtension_of_ok htake)]
      exact Registry.restore_take htake
  | succ bound ih =>
    cases htake : m.registry.take owner with
    | error f => rw [callAs_of_refused htake]
    | ok taken =>
      obtain ⟨e, r⟩ := taken
      rw [callAs_of_taken htake]
      have hinner : ∀ other j, AgreeOn r (callAs manner bound other j) (callAs manner bound other j) := by
        rintro other j _ k ⟨rfl, hk⟩
        exact ⟨rfl, rfl, (ih other j k).trans hk⟩
      -- The keyword leaves alone what is left of the registry, so that putting back brings back all of it.
      have hbody := steady_runConduct r (manner e i (m.entered e i r)) _ _ (fun _ owned _ => hinner owned.owner)
      obtain ⟨-, -, hlast⟩ := hbody (m.entered e i r) (m.entered e i r) ⟨rfl, rfl⟩
      show Registry.restore _ owner = m.registry
      rw [hlast]
      exact Registry.restore_take htake

/-- Calls do on a registry what they do, and leave it alone. -/
theorem agreeOn_callAs (r : Registry) (manner : Manner) (bound owner : Nat) (i : Invocation) :
    AgreeOn r (callAs manner bound owner i) (callAs manner bound owner i) := by
  rintro _ m ⟨rfl, hm⟩
  exact ⟨rfl, rfl, (registry_callAs manner bound owner i m).trans hm⟩

end Machine

/-! ## Calls -/

/-- Does a step call the extension in a slot, on some machine?  Were the call to do something else, so would the
step. -/
def CallsAt {α : Type} (a : Invoke → Act α) (inv : Invoke) (m : Machine) (owner : Nat) (i : Invocation) (k : Machine) :
    Prop :=
  ∃ inv' : Invoke, (∀ other j l, (other, j, l) ≠ (owner, i, k) → inv' other j l = inv other j l) ∧ a inv' m ≠ a inv m

section CallsAt

variable {α : Type} {a : Invoke → Act α} {inv : Invoke} {m k : Machine} {owner : Nat} {i : Invocation}

/-- **A step makes no calls but those of registered keywords, on the registry that it finds.** -/
theorem Steady.callsAt (ha : Steady m.registry a)
    (hinv : ∀ other j, AgreeOn m.registry (inv other j) (inv other j)) (h : CallsAt a inv m owner i k) :
    k.registry = m.registry ∧ ∃ keyword owned, m.registry.keywords.find? keyword = some owned ∧ owned.owner = owner := by
  obtain ⟨inv', helsewhere, hdiffers⟩ := h
  by_contra hno
  have hsame : ∀ keyword owned, m.registry.keywords.find? keyword = some owned → ∀ j,
      AgreeOn m.registry (inv owned.owner j) (inv' owned.owner j) := by
    rintro keyword owned hfound j _ l ⟨rfl, hl⟩
    have hother : (owned.owner, j, l) ≠ (owner, i, k) := by
      intro heq
      cases heq
      exact hno ⟨hl, keyword, owned, hfound, rfl⟩
    rw [helsewhere _ _ _ hother]
    exact hinv _ _ _ _ ⟨rfl, hl⟩
  obtain ⟨hanswer, hlast, -⟩ := ha inv inv' hsame m m ⟨rfl, rfl⟩
  exact hdiffers (Prod.ext hanswer.symm hlast)

/-- A step makes a call if it ends in a way that follows from how the call ends, and fails just when that does. -/
theorem callsAt_of_apply {ends : Except Fault Unit × Machine → Except Fault α × Machine}
    (happly : ∀ inv, a inv m = ends (inv owner i k)) (hok : ∀ ended, (ends ended).1.isOk = ended.1.isOk) :
    CallsAt a inv m owner i k := by
  classical
  -- The call is made to fail where it succeeds, and to succeed where it fails.
  let ended : Except Fault Unit := if (inv owner i k).1.isOk then .error .noScript else .ok ()
  have hopposite : ended.isOk ≠ (inv owner i k).1.isOk := by
    unfold ended
    split
    · rename_i h
      rw [h]
      decide
    · rename_i h
      rw [Bool.not_eq_true] at h
      rw [h]
      decide
  refine ⟨fun other j l => if (other, j, l) = (owner, i, k) then (ended, k) else inv other j l, ?_, ?_⟩
  · intro other j l hother
    exact if_neg hother
  · intro hsame
    have hanswer := congrArg (fun e => e.1.isOk) hsame
    simp only [happly, hok, if_true] at hanswer
    exact hopposite hanswer

end CallsAt

end LineScript
