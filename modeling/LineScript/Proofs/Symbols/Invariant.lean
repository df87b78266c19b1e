/-
# The invariant of the store

`Symbols.WellFormed` says how the parts of a store belong together: calls to functions, the iteration to one of
the calls, the open declaration to a function, and names to what they name.

Main statement: every history of operations leads to a well-formed store (`Reachable.wellFormed`).  Each operation
keeps it (`WellFormed.perform`).  The part that calls, iterations and declarations share is `Linked`; whatever
enters a function keeps it by `Linked.enter`, whatever pushes a call by `Linked.push`.
-/
import LineScript.Proofs.Symbols.Operation
import Mathlib.Data.List.Nodup

namespace LineScript

/-- The names of a catalog stand in its order once, and exactly those under which it has something. -/
def Catalog.Listed {α : Type} (c : Catalog α) : Prop :=
  c.order.Nodup ∧ ∀ name, name ∈ c.order ↔ c.has name = true

theorem Catalog.listed_empty {α : Type} : ({} : Catalog α).Listed := by
  refine ⟨List.nodup_nil, fun name => ?_⟩
  simp [has, find?, Roster.find?]

theorem Catalog.Listed.enter {α : Type} {c : Catalog α} (h : c.Listed) (name : String) (a : α) :
    (c.enter name a).Listed := by
  obtain ⟨hnodup, hmem⟩ := h
  by_cases hknown : c.has name = true
  · have horder : (c.enter name a).order = c.order := if_pos hknown
    rw [Listed, horder]
    refine ⟨hnodup, fun other => ?_⟩
    rw [has_enter, hmem]
    constructor
    · exact Or.inr
    · rintro (rfl | hother)
      · exact hknown
      · exact hother
  · have horder : (c.enter name a).order = c.order ++ [name] := if_neg hknown
    have hnew : name ∉ c.order := fun hin => hknown ((hmem name).mp hin)
    rw [Listed, horder]
    refine ⟨?_, fun other => ?_⟩
    · rw [← List.concat_eq_append]
      exact List.Nodup.concat hnew hnodup
    · rw [has_enter, List.mem_append, List.mem_singleton, hmem, or_comm]

theorem Catalog.Listed.map {α β : Type} {c : Catalog α} (h : c.Listed) (f : α → β) : (c.map f).Listed := by
  refine ⟨h.1, fun name => ?_⟩
  rw [has_map]
  exact h.2 name

theorem Catalog.Listed.filter {α : Type} {c : Catalog α} (h : c.Listed) (p : α → Bool) :
    (c.filter p).Listed := by
  refine ⟨h.1.filter _, fun name => ?_⟩
  show name ∈ c.order.filter (c.table.filter p).has ↔ _
  rw [List.mem_filter]
  constructor
  · exact fun hname => hname.2
  · exact fun hkept => ⟨(h.2 name).mpr (has_filter hkept), hkept⟩

namespace Symbols

/-! ## The invariant -/

/-- The iteration runs a round among the calls: the call at its depth is one of its function, and the only
argument of that call is the item that the iteration is at. -/
def IsRound (it : Iteration) (calls : Calls) : Prop :=
  ∃ inner frame outer item, calls = inner ++ frame :: outer ∧ outer.length + 1 = it.depth ∧
    frame.function = it.function ∧ it.items[it.index]? = some item ∧ frame.arguments = [item]

/-- Functions, calls, the iteration and the open declaration belong together. -/
structure Linked (s : Symbols) : Prop where
  depth : s.calls.length ≤ maxCalls
  /-- Calls are calls of declared functions, with arguments that those accept. -/
  calls : ∀ frame ∈ s.calls, ∃ f, s.functions.find? frame.function = some f ∧ f.declared = true ∧
    f.Admits frame
  iteration : ∀ it, s.iteration = some it → IsRound it s.calls
  /-- The items still to come will be accepted as well. -/
  items : ∀ it f p, s.iteration = some it → s.functions.find? it.function = some f →
    f.params.head? = some p → ∀ item ∈ it.items, p.accepts item = true
  declaring : ∀ name, s.declaring = some name → ∃ f, s.functions.find? name = some f ∧
    f.declared = true ∧ f.ended = false
  ended : ∀ name f, s.functions.find? name = some f → (f.ended = true ↔ f.finish.isSome = true)

/-- The parts of a store belong together, and names are listed once. -/
structure WellFormed (s : Symbols) : Prop extends Linked s where
  locals : s.locals.Listed
  globals : s.globals.Listed
  functions : s.functions.Listed

variable {s s' : Symbols} {name : String} {line : Nat}

theorem IsRound.bounds {it : Iteration} {calls : Calls} (h : IsRound it calls) :
    1 ≤ it.depth ∧ it.depth ≤ calls.length := by
  obtain ⟨inner, frame, outer, item, rfl, hdepth, -⟩ := h
  simp only [List.length_append, List.length_cons]
  omega

/-- The function of the iteration is one that is called, so it is declared. -/
theorem Linked.iterated (h : s.Linked) {it : Iteration} (hit : s.iteration = some it) :
    ∃ f, s.functions.find? it.function = some f ∧ f.declared = true := by
  obtain ⟨inner, frame, outer, item, hcalls, -, hfunction, -⟩ := h.iteration it hit
  obtain ⟨f, hfound, hdeclared, -⟩ := h.calls frame (by simp [hcalls])
  rw [hfunction] at hfound
  exact ⟨f, hfound, hdeclared⟩

/-! ## Functions -/

/-- **Entering a function keeps a store linked**, when a declared function of the name keeps its parameters. -/
theorem Linked.enter (h : s.Linked) {f' : Function} {d : Option String}
    (hkeep : ∀ f, s.functions.find? name = some f → f.declared = true →
      f'.declared = true ∧ f'.params = f.params)
    (hended : f'.ended = true ↔ f'.finish.isSome = true)
    (hd : ∀ n, d = some n → (n = name ∧ f'.declared = true ∧ f'.ended = false) ∨
      (n ≠ name ∧ s.declaring = some n)) :
    Linked { s with functions := s.functions.enter name f', declaring := d } where
  depth := h.depth
  calls := by
    intro frame hframe
    obtain ⟨f, hfound, hdeclared, hadmits⟩ := h.calls frame hframe
    by_cases hname : frame.function = name
    · rw [hname] at hfound ⊢
      obtain ⟨hdeclared', hparams⟩ := hkeep f hfound hdeclared
      refine ⟨f', Catalog.find?_enter_self _ _ _, hdeclared', ?_⟩
      rw [Function.Admits, hparams]
      exact hadmits
    · exact ⟨f, by rw [Catalog.find?_enter_of_ne _ hname, hfound], hdeclared, hadmits⟩
  iteration := h.iteration
  items := by
    intro it f p hit hfound hparam
    by_cases hname : it.function = name
    · obtain ⟨f₀, hfound₀, hdeclared⟩ := h.iterated hit
      rw [hname] at hfound₀ hfound
      rw [Catalog.find?_enter_self] at hfound
      cases hfound
      have hparams := (hkeep f₀ hfound₀ hdeclared).2
      exact h.items it f₀ p hit (by rw [hname, hfound₀]) (by rw [← hparams, hparam])
    · rw [Catalog.find?_enter_of_ne _ hname] at hfound
      exact h.items it f p hit hfound hparam
  declaring := by
    intro n hn
    rcases hd n hn with ⟨rfl, hdeclared, hopen⟩ | ⟨hname, hbefore⟩
    · exact ⟨f', Catalog.find?_enter_self _ _ _, hdeclared, hopen⟩
    · obtain ⟨f, hfound, hrest⟩ := h.declaring n hbefore
      exact ⟨f, by rw [Catalog.find?_enter_of_ne _ hname, hfound], hrest⟩
  ended := by
    intro n f hfound
    by_cases hname : n = name
    · rw [hname, Catalog.find?_enter_self] at hfound
      cases hfound
      exact hended
    · rw [Catalog.find?_enter_of_ne _ hname] at hfound
      exact h.ended n f hfound

theorem Linked.declareFunction (h : s.Linked) {params : List Parameter} {d : Declared}
    (hok : s.declareFunction name params line = .ok (d, s')) : s'.Linked := by
  obtain ⟨hnew, ⟨-, rfl⟩ | ⟨f, finish, hfound, hfinish, -, -, rfl⟩⟩ := declareFunction_eq_ok hok
  · refine h.enter ?_ (by simp) ?_
    · intro f hfound hdeclared
      rw [hnew f hfound] at hdeclared
      cases hdeclared
    · rintro n ⟨⟩
      exact Or.inl ⟨rfl, rfl, rfl⟩
  · -- The open declaration is another one, since its function is declared and this one is not.
    refine h.enter ?_ (h.ended name f hfound) ?_
    · intro f₀ hfound₀ hdeclared
      rw [hnew f₀ hfound₀] at hdeclared
      cases hdeclared
    · intro n hn
      refine Or.inr ⟨?_, hn⟩
      rintro rfl
      obtain ⟨f₀, hfound₀, hdeclared, -⟩ := h.declaring n hn
      rw [hnew f₀ hfound₀] at hdeclared
      cases hdeclared

theorem Linked.finishDeclaration (h : s.Linked) (line : Nat) : (s.finishDeclaration line).Linked := by
  unfold Symbols.finishDeclaration
  cases hd : s.declaring with
  | none => exact h
  | some name =>
    obtain ⟨f, hfound, hdeclared, -⟩ := h.declaring name hd
    dsimp only
    rw [hfound]
    refine h.enter ?_ (by simp) (by rintro n ⟨⟩)
    intro f₀ hfound₀ hdeclared₀
    rw [hfound] at hfound₀
    cases hfound₀
    exact ⟨hdeclared₀, rfl⟩

/-! ## Calls -/

/-- **Pushing a call keeps a store linked**, when its function admits it. -/
theorem Linked.push (h : s.Linked) {f : Function} (frame : Frame) (hdepth : s.calls.length < maxCalls)
    (hfunction : s.function? frame.function = some f) (hadmits : f.Admits frame) :
    Linked { s with calls := frame :: s.calls } where
  depth := hdepth
  calls := by
    intro frame' hframe
    rcases List.mem_cons.mp hframe with rfl | hold
    · obtain ⟨hfound, hdeclared⟩ := function?_eq_some hfunction
      exact ⟨f, hfound, hdeclared, hadmits⟩
    · exact h.calls frame' hold
  iteration := by
    intro it hit
    obtain ⟨inner, frame', outer, item, hcalls, hrest⟩ := h.iteration it hit
    exact ⟨frame :: inner, frame', outer, item, by rw [hcalls]; rfl, hrest⟩
  items := h.items
  declaring := h.declaring
  ended := h.ended

theorem Linked.call (h : s.Linked) {args : List Value} {start : Nat}
    (hok : s.call name args line = .ok (start, s')) : s'.Linked := by
  obtain ⟨f, frame, hfunction, -, rfl, -, hadmits, hdepth, rfl⟩ := call_eq_ok hok
  exact h.push frame hdepth hfunction hadmits

/-- A function admits a call with the first of its parameters alone. -/
theorem admits_first {f : Function} {p : Parameter} {item : Value} (hparam : f.params.head? = some p)
    (haccepts : p.accepts item = true) (function : String) (returnLine : Nat) :
    f.Admits ⟨function, returnLine, [(p.name, item)]⟩ := by
  obtain ⟨rest, hparams⟩ := List.head?_eq_some_iff.mp hparam
  show List.Forall₂ _ [(p.name, item)] (f.params.take 1)
  rw [hparams]
  exact .cons ⟨rfl, haccepts⟩ .nil

theorem Linked.iterate (h : s.Linked) {items : List Value} {start : Option Nat}
    (hok : s.iterate name items line = .ok (start, s')) : s'.Linked := by
  cases start with
  | none =>
    rw [iterate_eq_ok_none hok]
    exact h
  | some start =>
    obtain ⟨-, f, p, first, rest, hfunction, -, hparam, hitems, haccepted, hdepth, rfl⟩ := iterate_eq_ok hok
    have hfirst : p.accepts first = true := haccepted first (by rw [hitems]; exact List.mem_cons_self)
    have hpushed := h.push ⟨name, line, [(p.name, first)]⟩ hdepth hfunction
      (admits_first hparam hfirst name line)
    refine { hpushed with iteration := ?_, items := ?_ }
    · rintro it ⟨⟩
      exact ⟨[], _, s.calls, first, rfl, rfl, rfl, by rw [hitems]; rfl, rfl⟩
    · rintro it f' p' ⟨⟩ hfound hparam'
      obtain ⟨hfound₀, -⟩ := function?_eq_some hfunction
      obtain rfl : f = f' := Option.some.inj (hfound₀.symm.trans hfound)
      obtain rfl : p = p' := Option.some.inj (hparam.symm.trans hparam')
      exact haccepted

/-! ## Returns -/

/-- Popping a call keeps a store linked, when no round of the iteration ends with it. -/
theorem Linked.pop (h : s.Linked) {frame : Frame} {outer : Calls} (hcalls : s.calls = frame :: outer)
    (hround : s.endingRound? frame.function (outer.length + 1) = none) :
    Linked { s with calls := outer } where
  depth := by
    have hdepth := h.depth
    rw [hcalls, List.length_cons] at hdepth
    exact Nat.le_of_succ_le hdepth
  calls := fun frame' hframe => h.calls frame' (by rw [hcalls]; exact List.mem_cons_of_mem frame hframe)
  iteration := by
    intro it hit
    obtain ⟨inner, frame', outer', item, hsplit, hdepth, hfunction, hrest⟩ := h.iteration it hit
    cases inner with
    | nil =>
      -- The call of the round would be the one that is popped.
      rw [hcalls] at hsplit
      cases hsplit
      have hending : s.endingRound? frame.function (outer.length + 1) = some it :=
        endingRound?_eq_some.mpr ⟨hit, hfunction.symm, hdepth.symm⟩
      rw [hround] at hending
      cases hending
    | cons top inner =>
      rw [hcalls] at hsplit
      cases hsplit
      exact ⟨inner, frame', outer', item, rfl, hdepth, hfunction, hrest⟩
  items := h.items
  declaring := h.declaring
  ended := h.ended

/-- Without its iteration a store is linked as well, whatever calls are dropped from the top. -/
theorem Linked.dropIteration (h : s.Linked) (dropped : Calls) {outer : Calls} (hcalls : s.calls = dropped ++ outer) :
    Linked { s with calls := outer, iteration := none } where
  depth := by
    have hdepth := h.depth
    rw [hcalls, List.length_append] at hdepth
    exact Nat.le_trans (Nat.le_add_left _ _) hdepth
  calls := fun frame hframe => h.calls frame (by rw [hcalls]; exact List.mem_append_right dropped hframe)
  iteration := by rintro it ⟨⟩
  items := by rintro it f p ⟨⟩
  declaring := h.declaring
  ended := h.ended

theorem Linked.finishCall (h : s.Linked) {reply : Returned}
    (hok : s.finishCall name = .ok (reply, s')) : s'.Linked := by
  obtain ⟨f, hfunction, ⟨-, rfl, -⟩ | ⟨frame, outer, hcalls, rfl, hcase⟩⟩ := finishCall_eq_ok hok
  · exact h
  rcases hcase with ⟨hround, -, rfl⟩ |
    ⟨it, hround, ⟨item, p, hitem, hparam, -, rfl⟩ | ⟨-, -, rfl⟩⟩
  · exact h.pop hcalls hround
  · obtain ⟨hit, hname, hdepth⟩ := endingRound?_eq_some.mp hround
    obtain ⟨hfound, hdeclared⟩ := function?_eq_some hfunction
    have hfound' : s.functions.find? it.function = some f := by rw [hname, hfound]
    have haccepts : p.accepts item = true :=
      h.items it f p hit hfound' hparam item (List.mem_of_getElem? hitem)
    have hpopped : Linked { s with calls := outer, iteration := none } :=
      h.dropIteration [frame] hcalls
    -- The call of the next round is pushed unchecked, but it takes the place of the one just popped.
    have hlen : outer.length < maxCalls := by
      have hdepth := h.depth
      rw [hcalls, List.length_cons] at hdepth
      exact hdepth
    have hpushed := hpopped.push ⟨frame.function, frame.returnLine, [(p.name, item)]⟩ hlen
      hfunction (admits_first hparam haccepts frame.function frame.returnLine)
    refine { hpushed with iteration := ?_, items := ?_ }
    · rintro it' ⟨⟩
      exact ⟨[], _, outer, item, rfl, hdepth.symm, hname.symm, hitem, rfl⟩
    · rintro it' f' p' ⟨⟩ hfound₁ hparam₁
      exact h.items it f' p' hit hfound₁ hparam₁
  · exact h.dropIteration [frame] hcalls

/-! ## Histories -/

/-- Entering a variable concerns its own table only. -/
theorem WellFormed.withTable (h : s.WellFormed) {isGlobal : Bool} {t : Catalog Variable} (ht : t.Listed) :
    (s.withTable isGlobal t).WellFormed := by
  cases isGlobal with
  | true => exact { h with globals := ht }
  | false => exact { h with locals := ht }

theorem WellFormed.table (h : s.WellFormed) (isGlobal : Bool) : (s.table isGlobal).Listed := by
  cases isGlobal with
  | true => exact h.globals
  | false => exact h.locals

/-- Where no function is known, and no call is running, nothing has to fit. -/
theorem linked_of_nothing (hfunctions : s.functions = {}) (hcalls : s.calls = []) (hiteration : s.iteration = none)
    (hdeclaring : s.declaring = none) : s.Linked where
  depth := by simp [hcalls]
  calls := by simp [hcalls]
  iteration := by simp [hiteration]
  items := by simp [hiteration]
  declaring := by simp [hdeclaring]
  ended := by
    intro name f hfound
    rw [hfunctions] at hfound
    cases hfound

theorem Linked.resetPass (h : s.Linked) : s.resetPass.Linked where
  depth := Nat.zero_le _
  calls := by rintro frame ⟨⟩
  iteration := by rintro it ⟨⟩
  items := by rintro it f p ⟨⟩
  declaring := by rintro name ⟨⟩
  ended := by
    intro name f hfound
    have hmap : (s.functions.find? name).map (fun f => { f with declared := false }) = some f := by
      rw [← Catalog.find?_map]
      exact hfound
    obtain ⟨f₀, hfound₀, rfl⟩ := Option.map_eq_some_iff.mp hmap
    exact h.ended name f₀ hfound₀

theorem wellFormed_empty : WellFormed {} where
  toLinked := linked_of_nothing rfl rfl rfl rfl
  locals := Catalog.listed_empty
  globals := Catalog.listed_empty
  functions := Catalog.listed_empty

theorem WellFormed.clear (h : s.WellFormed) : s.clear.WellFormed :=
  { wellFormed_empty with globals := h.globals.filter _ }

theorem WellFormed.resetPass (h : s.WellFormed) : s.resetPass.WellFormed where
  toLinked := h.toLinked.resetPass
  locals := h.locals.map _
  globals := h.globals.map _
  functions := h.functions.map _

theorem WellFormed.declare (h : s.WellFormed) {initial : Option Value} {isGlobal : Bool}
    (hok : s.declare name initial isGlobal = .ok s') : s'.WellFormed := by
  obtain ⟨v, rfl⟩ := declare_eq_ok hok
  exact h.withTable ((h.table isGlobal).enter name v)

theorem WellFormed.assign (h : s.WellFormed) {value : Value} {isGlobal : Bool}
    (hok : s.assign name value isGlobal = .ok s') : s'.WellFormed := by
  obtain ⟨v, rfl⟩ := assign_eq_ok hok
  exact h.withTable ((h.table isGlobal).enter name v)

theorem WellFormed.declareFunction (h : s.WellFormed) {params : List Parameter} {d : Declared}
    (hok : s.declareFunction name params line = .ok (d, s')) : s'.WellFormed := by
  have hlinked := h.toLinked.declareFunction hok
  obtain ⟨-, ⟨-, rfl⟩ | ⟨f, finish, -, -, -, -, rfl⟩⟩ := declareFunction_eq_ok hok
  · exact ⟨hlinked, h.locals, h.globals, h.functions.enter _ _⟩
  · exact ⟨hlinked, h.locals, h.globals, h.functions.enter _ _⟩

theorem WellFormed.finishDeclaration (h : s.WellFormed) (line : Nat) :
    (s.finishDeclaration line).WellFormed := by
  have hlinked := h.toLinked.finishDeclaration line
  unfold Symbols.finishDeclaration at hlinked ⊢
  split at hlinked
  · exact h
  · refine ⟨hlinked, h.locals, h.globals, ?_⟩
    split
    · exact h.functions.enter _ _
    · exact h.functions

theorem WellFormed.call (h : s.WellFormed) {args : List Value} {start : Nat}
    (hok : s.call name args line = .ok (start, s')) : s'.WellFormed := by
  have hlinked := h.toLinked.call hok
  obtain ⟨f, frame, -, -, -, -, -, -, rfl⟩ := call_eq_ok hok
  exact ⟨hlinked, h.locals, h.globals, h.functions⟩

theorem WellFormed.iterate (h : s.WellFormed) {items : List Value} {start : Option Nat}
    (hok : s.iterate name items line = .ok (start, s')) : s'.WellFormed := by
  have hlinked := h.toLinked.iterate hok
  cases start with
  | none =>
    rw [iterate_eq_ok_none hok]
    exact h
  | some start =>
    obtain ⟨-, f, p, first, rest, -, -, -, -, -, -, rfl⟩ := iterate_eq_ok hok
    exact ⟨hlinked, h.locals, h.globals, h.functions⟩

theorem WellFormed.finishCall (h : s.WellFormed) {reply : Returned}
    (hok : s.finishCall name = .ok (reply, s')) : s'.WellFormed := by
  have hlinked := h.toLinked.finishCall hok
  obtain ⟨f, -, ⟨-, rfl, -⟩ | ⟨frame, outer, -, -, hcase⟩⟩ := finishCall_eq_ok hok
  · exact h
  rcases hcase with ⟨-, -, rfl⟩ | ⟨it, -, ⟨item, p, -, -, -, rfl⟩ | ⟨-, -, rfl⟩⟩ <;>
    exact ⟨hlinked, h.locals, h.globals, h.functions⟩

/-- **Each operation keeps a store well-formed**, whether it succeeds or fails. -/
theorem WellFormed.perform (h : s.WellFormed) (c : Command) : (s.perform c).2.WellFormed := by
  cases c with
  | declare name initial isGlobal => exact settle_keeps h _ fun _ hok => h.declare hok
  | assign name value isGlobal => exact settle_keeps h _ fun _ hok => h.assign hok
  | provide name value => exact { h with globals := h.globals.enter _ _ }
  | declareFunction name params line => exact settle_keeps h _ fun _ hok => h.declareFunction hok
  | finishDeclaration line => exact h.finishDeclaration line
  | call name args line => exact settle_keeps h _ fun _ hok => h.call hok
  | finishCall name => exact settle_keeps h _ fun _ hok => h.finishCall hok
  | iterate name items line => exact settle_keeps h _ fun _ hok => h.iterate hok
  | resetPass => exact h.resetPass
  | clear => exact h.clear

/-- **The invariant of the store**: whatever operations have led to a store, its calls are at most
`maxCalls`, each of a declared function that accepts its arguments; a running iteration has its call, for the
item that it is at; an open declaration is one of a declared function without end; the `end` of a function is
known exactly when it has ended; and names are listed once, each with what it names. -/
theorem Reachable.wellFormed (h : Reachable s) : s.WellFormed := by
  induction h with
  | empty => exact wellFormed_empty
  | step c _ ih => exact ih.perform c

/-- The store after some operations. -/
def performAll (s : Symbols) : List Command → Symbols
  | [] => s
  | c :: rest => performAll (s.perform c).2 rest

theorem Reachable.performAll (h : Reachable s) (cs : List Command) : Reachable (s.performAll cs) := by
  induction cs generalizing s with
  | nil => exact h
  | cons c rest ih => exact ih (h.step c)

/-- **The invariant of the store.**  Whatever operations have led to a store:

* at most `maxCalls` calls are running;
* each is a call of a declared function, and its arguments are accepted by the parameters of that function;
* a running iteration has its call among them, at its depth, and the only argument of that call is the item
  that the iteration is at;
* a function whose body is being passed over is declared and has not ended;
* a function has ended exactly when the line of its end is known;
* names are listed once, and exactly those that name something. -/
theorem reachable_store_invariant (h : Reachable s) :
    s.calls.length ≤ maxCalls ∧
    (∀ frame ∈ s.calls, ∃ f, s.functions.find? frame.function = some f ∧ f.declared = true ∧
      f.Admits frame) ∧
    (∀ it, s.iteration = some it → 1 ≤ it.depth ∧ it.depth ≤ s.calls.length ∧
      it.index < it.items.length ∧ ∃ frame, s.calls[s.calls.length - it.depth]? = some frame ∧
        frame.function = it.function ∧ ∃ item, it.items[it.index]? = some item ∧
          frame.arguments = [item]) ∧
    (∀ name, s.declaring = some name → ∃ f, s.functions.find? name = some f ∧ f.declared = true ∧
      f.ended = false) ∧
    (∀ name f, s.functions.find? name = some f → (f.ended = true ↔ f.finish.isSome = true)) ∧
    s.locals.Listed ∧ s.globals.Listed ∧ s.functions.Listed := by
  have hwell := h.wellFormed
  refine ⟨hwell.depth, hwell.calls, ?_, hwell.declaring, hwell.ended, hwell.locals, hwell.globals,
    hwell.functions⟩
  intro it hit
  have hround := hwell.iteration it hit
  obtain ⟨hlow, hhigh⟩ := hround.bounds
  obtain ⟨inner, frame, outer, item, hcalls, hdepth, hfunction, hitem, harguments⟩ := hround
  have hindex := (List.getElem?_eq_some_iff.mp hitem).1
  refine ⟨hlow, hhigh, hindex, frame, ?_, hfunction, item, hitem, harguments⟩
  have hposition : s.calls.length - it.depth = inner.length := by
    rw [hcalls, List.length_append, List.length_cons]
    omega
  rw [hposition, hcalls, List.getElem?_append_right (Nat.le_refl _), Nat.sub_self]
  rfl

/-- The invariant in the middle of an iteration whose function has called itself. -/
theorem reachable_store_invariant_of_recursion : ∃ s : Symbols, Reachable s ∧ s.calls.length = 2 ∧
    ∃ it, s.iteration = some it ∧ it.index = 1 ∧ ∃ frame, s.calls[1]? = some frame ∧
      frame.function = "f" ∧ ∃ item, it.items[1]? = some item ∧ frame.arguments = [item] := by
  let s := ({} : Symbols).performAll [.declareFunction "f" [⟨"x", none⟩] 0, .finishDeclaration 3,
    .iterate "f" [.string "a", .string "b"] 5, .finishCall "f", .call "f" [.string "c"] 2]
  have hreachable : Reachable s := Reachable.empty.performAll _
  have hchecks : s.calls.length = 2 ∧
      s.iteration.map (fun it => (it.function, it.index, it.depth)) = some ("f", 1, 1) := by
    decide
  obtain ⟨hcalls, hchecked⟩ := hchecks
  obtain ⟨it, hit, hparts⟩ := Option.map_eq_some_iff.mp hchecked
  simp only [Prod.mk.injEq] at hparts
  obtain ⟨hfunction, hindex, hdepth⟩ := hparts
  obtain ⟨-, -, hiteration, -⟩ := reachable_store_invariant hreachable
  obtain ⟨-, -, -, frame, hframe, hname, item, hitem, harguments⟩ := hiteration it hit
  rw [hcalls, hdepth] at hframe
  rw [hindex] at hitem
  exact ⟨s, hreachable, hcalls, it, hit, hindex, frame, hframe, hname.trans hfunction, item, hitem,
    harguments⟩

end Symbols

end LineScript
