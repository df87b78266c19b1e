/-
# Iterations

An iteration calls its function once for each item.  Its round is one call, which each `end` of it replaces by the
call for the next item, up to the last one, which goes back to where the iteration began.

`Symbols.Running` says that a store is in some round of an iteration.  Whatever operations but resets follow, the
store stays in this round until the call of the round is popped (`Running.perform`), and each time it is popped
the next round starts (`Running.next`) or the iteration is over (`Running.over`).

Main statement: an iteration delivers every item once and in order, and then unwinds (`iteration_delivers`).
-/
import LineScript.Proofs.Symbols.Invariant

namespace LineScript.Symbols

/-! ## Rounds -/

/-- What stays the same during an iteration. -/
structure Loop where
  function : String
  /-- The line of the statement that began it. -/
  returnLine : Nat
  /-- The first parameter of the function. -/
  param : String
  /-- The first line of the body. -/
  start : Nat
  items : List Value
  /-- The calls that were running before. -/
  outer : Calls

/-- How many calls are running while a round is the innermost one. -/
def Loop.depth (l : Loop) : Nat := l.outer.length + 1

/-- The call of a round. -/
def Loop.round (l : Loop) (item : Value) : Frame := ⟨l.function, l.returnLine, [(l.param, item)]⟩

/-- A store is in the round of the item at some position, some calls being made from there. -/
structure Running (l : Loop) (k : Nat) (s : Symbols) : Prop where
  calls : ∃ inner item, l.items[k]? = some item ∧ s.calls = inner ++ l.round item :: l.outer
  iteration : s.iteration = some ⟨l.function, l.items, k, l.depth⟩
  function : ∃ f p, s.function? l.function = some f ∧ f.start = l.start ∧ f.params.head? = some p ∧
    p.name = l.param

variable {s s' : Symbols} {l : Loop} {k : Nat} {name : String} {line : Nat}

/-- When only the call of the round and those before it are running, it is the innermost one. -/
theorem Running.innermost (h : Running l k s) (hlen : s.calls.length = l.depth) :
    ∃ item, l.items[k]? = some item ∧ s.calls = l.round item :: l.outer := by
  obtain ⟨inner, item, hitem, hcalls⟩ := h.calls
  rw [hcalls, List.length_append, List.length_cons, Loop.depth] at hlen
  obtain rfl : inner = [] := List.eq_nil_of_length_eq_zero (by omega)
  exact ⟨item, hitem, hcalls⟩

/-- **The end of a round starts the next one.** -/
theorem Running.next (h : Running l k s) (hlen : s.calls.length = l.depth) {item : Value}
    (hitem : l.items[k + 1]? = some item) :
    s.finishCall l.function = .ok (.resume l.start, { s with
      calls := l.round item :: l.outer
      iteration := some ⟨l.function, l.items, k + 1, l.depth⟩ }) := by
  obtain ⟨current, -, hcalls⟩ := h.innermost hlen
  obtain ⟨f, p, hfunction, hstart, hparam, hname⟩ := h.function
  have hround : s.endingRound? l.function (l.outer.length + 1) = some ⟨l.function, l.items, k, l.depth⟩ :=
    endingRound?_eq_some.mpr ⟨h.iteration, rfl, rfl⟩
  unfold finishCall
  rw [hfunction, hcalls]
  dsimp only [Loop.round]
  rw [if_pos rfl, hround]
  dsimp only
  rw [hitem, hparam, ← hstart, ← hname]

/-- **The end of the last round ends the iteration.** -/
theorem Running.over (h : Running l k s) (hlen : s.calls.length = l.depth)
    (hitem : l.items[k + 1]? = none) :
    s.finishCall l.function =
      .ok (.resume (l.returnLine + 1), { s with calls := l.outer, iteration := none }) := by
  obtain ⟨current, -, hcalls⟩ := h.innermost hlen
  obtain ⟨f, p, hfunction, hstart, hparam, hname⟩ := h.function
  have hround : s.endingRound? l.function (l.outer.length + 1) = some ⟨l.function, l.items, k, l.depth⟩ :=
    endingRound?_eq_some.mpr ⟨h.iteration, rfl, rfl⟩
  unfold finishCall
  rw [hfunction, hcalls]
  dsimp only [Loop.round]
  rw [if_pos rfl, hround]
  dsimp only
  rw [hitem]

/-- At any other depth no round ends. -/
theorem Running.endingRound?_eq_none (h : Running l k s) {depth : Nat} (hdepth : depth ≠ l.depth) :
    s.endingRound? name depth = none := by
  cases hround : s.endingRound? name depth with
  | none => rfl
  | some it =>
    obtain ⟨hit, -, hsame⟩ := endingRound?_eq_some.mp hround
    rw [h.iteration] at hit
    cases hit
    exact absurd hsame.symm hdepth

/-- **A call made during a round returns to its own caller** and leaves the iteration alone. -/
theorem Running.inner (h : Running l k s) (hs : s.Linked) (hlen : s.calls.length ≠ l.depth) :
    ∃ frame outer, s.calls = frame :: outer ∧
      s.finishCall frame.function = .ok (.resume (frame.returnLine + 1), { s with calls := outer }) := by
  obtain ⟨inner, item, hitem, hcalls⟩ := h.calls
  cases inner with
  | nil =>
    rw [hcalls] at hlen
    exact absurd rfl hlen
  | cons frame inner =>
    refine ⟨frame, inner ++ l.round item :: l.outer, hcalls, ?_⟩
    obtain ⟨f, hfound, hdeclared, -⟩ := hs.calls frame (by rw [hcalls]; exact List.mem_cons_self)
    have hfunction : s.function? frame.function = some f :=
      Option.filter_eq_some_iff.mpr ⟨hfound, hdeclared⟩
    have hround : s.endingRound? frame.function ((inner ++ l.round item :: l.outer).length + 1) = none := by
      refine h.endingRound?_eq_none ?_
      simp only [List.length_append, List.length_cons, Loop.depth]
      omega
    unfold finishCall
    rw [hfunction, hcalls]
    dsimp only [List.cons_append]
    rw [if_pos rfl, hround]

/-! ## Operations during a round -/

/-- Operations that only touch variables keep the round. -/
theorem Running.withTable (h : Running l k s) (isGlobal : Bool) (t : Catalog Variable) :
    Running l k (s.withTable isGlobal t) := by
  cases isGlobal <;> exact ⟨h.calls, h.iteration, h.function⟩

/-- Entering a function keeps the round, when a declared function of the name keeps its body and parameters. -/
theorem Running.enter (h : Running l k s) {f' : Function} {d : Option String}
    (hkeep : ∀ f, s.functions.find? name = some f → f.declared = true →
      f'.declared = true ∧ f'.start = f.start ∧ f'.params = f.params) :
    Running l k { s with functions := s.functions.enter name f', declaring := d } := by
  refine ⟨h.calls, h.iteration, ?_⟩
  obtain ⟨f, p, hfunction, hstart, hparam, hname⟩ := h.function
  obtain ⟨hfound, hdeclared⟩ := function?_eq_some hfunction
  by_cases hsame : l.function = name
  · rw [hsame] at hfound
    obtain ⟨hdeclared', hstart', hparams'⟩ := hkeep f hfound hdeclared
    refine ⟨f', p, Option.filter_eq_some_iff.mpr ⟨?_, hdeclared'⟩, ?_, ?_, hname⟩
    · rw [hsame, Catalog.find?_enter_self]
    · rw [hstart', hstart]
    · rw [hparams', hparam]
  · refine ⟨f, p, Option.filter_eq_some_iff.mpr ⟨?_, hdeclared⟩, hstart, hparam, hname⟩
    rw [Catalog.find?_enter_of_ne _ hsame, hfound]

theorem Running.declareFunction (h : Running l k s) {params : List Parameter} {d : Declared}
    (hok : s.declareFunction name params line = .ok (d, s')) : Running l k s' := by
  obtain ⟨hnew, ⟨-, rfl⟩ | ⟨f, finish, -, -, -, -, rfl⟩⟩ := declareFunction_eq_ok hok
  all_goals
    refine h.enter fun f₀ hfound hdeclared => ?_
    rw [hnew f₀ hfound] at hdeclared
    cases hdeclared

theorem Running.finishDeclaration (h : Running l k s) (line : Nat) :
    Running l k (s.finishDeclaration line) := by
  unfold Symbols.finishDeclaration
  split
  · exact h
  · rename_i name _
    cases hfound : s.functions.find? name with
    | none => exact ⟨h.calls, h.iteration, h.function⟩
    | some f =>
      refine h.enter fun f₀ hfound₀ hdeclared => ?_
      rw [hfound] at hfound₀
      cases hfound₀
      exact ⟨hdeclared, rfl, rfl⟩

/-- A call keeps the round below it. -/
theorem Running.call (h : Running l k s) {args : List Value} {start : Nat}
    (hok : s.call name args line = .ok (start, s')) : Running l k s' := by
  obtain ⟨f, frame, -, -, -, -, -, -, rfl⟩ := call_eq_ok hok
  obtain ⟨inner, item, hitem, hcalls⟩ := h.calls
  exact ⟨⟨frame :: inner, item, hitem, by rw [hcalls]; rfl⟩, h.iteration, h.function⟩

/-- No other iteration starts. -/
theorem Running.iterate (h : Running l k s) {items : List Value} {start : Option Nat}
    (hok : s.iterate name items line = .ok (start, s')) : Running l k s' := by
  rw [Symbols.iterate, h.iteration] at hok
  cases hok

/-- Does an operation pop the call at some depth? -/
def pops (s : Symbols) (depth : Nat) : Command → Bool
  | .finishCall name =>
    match s.finishCall name with
    | .ok (.resume _, _) => s.calls.length == depth
    | _ => false
  | _ => false

/-- An `end` that does not pop the call of the round keeps the round. -/
theorem Running.finishCall (h : Running l k s) {reply : Returned}
    (hok : s.finishCall name = .ok (reply, s')) (hpops : s.pops l.depth (.finishCall name) = false) :
    Running l k s' := by
  obtain ⟨f, -, ⟨-, rfl, -⟩ | ⟨frame, outer, hcalls, -, hcase⟩⟩ := finishCall_eq_ok hok
  · exact h
  have hresume : ∃ line, reply = .resume line := by
    rcases hcase with ⟨-, hreply, -⟩ | ⟨it, -, ⟨item, p, -, -, hreply, -⟩ | ⟨-, hreply, -⟩⟩ <;>
      exact ⟨_, hreply⟩
  obtain ⟨line, rfl⟩ := hresume
  -- The popped call is not the one of the round, so it was made from there.
  have hlen : s.calls.length ≠ l.depth := by
    intro hlen
    simp [pops, hok, hlen] at hpops
  have hround : s.endingRound? name (outer.length + 1) = none := by
    refine h.endingRound?_eq_none ?_
    rw [hcalls, List.length_cons] at hlen
    exact hlen
  rcases hcase with ⟨-, -, rfl⟩ | ⟨it, hit, -⟩
  · obtain ⟨inner, item, hitem, hsplit⟩ := h.calls
    cases inner with
    | nil =>
      rw [hsplit] at hlen
      exact absurd rfl hlen
    | cons top inner =>
      rw [hcalls] at hsplit
      cases hsplit
      exact ⟨⟨inner, item, hitem, rfl⟩, h.iteration, h.function⟩
  · rw [hround] at hit
    cases hit

/-- Is an operation one of the two resets? -/
def Command.isReset : Command → Bool
  | .resetPass | .clear => true
  | _ => false

/-- **What does not pop the call of a round keeps the round.** -/
theorem Running.perform (h : Running l k s) {c : Command} (hc : c.isReset = false)
    (hpops : s.pops l.depth c = false) : Running l k (s.perform c).2 := by
  cases c with
  | declare name initial isGlobal =>
    refine settle_keeps h _ fun s' hok => ?_
    obtain ⟨v, rfl⟩ := declare_eq_ok hok
    exact h.withTable _ _
  | assign name value isGlobal =>
    refine settle_keeps h _ fun s' hok => ?_
    obtain ⟨v, rfl⟩ := assign_eq_ok hok
    exact h.withTable _ _
  | provide name value => exact h.withTable true _
  | declareFunction name params line => exact settle_keeps h _ fun _ hok => h.declareFunction hok
  | finishDeclaration line => exact h.finishDeclaration line
  | call name args line => exact settle_keeps h _ fun _ hok => h.call hok
  | finishCall name => exact settle_keeps h _ fun _ hok => h.finishCall hok hpops
  | iterate name items line => exact settle_keeps h _ fun _ hok => h.iterate hok
  | resetPass | clear => cases hc

/-- Only an `end` of the function pops the call of the round, when it is the innermost one. -/
theorem Running.of_pops (h : Running l k s) {c : Command} (hpops : s.pops l.depth c = true) :
    s.calls.length = l.depth ∧ c = .finishCall l.function := by
  cases c with
  | finishCall name =>
    cases hok : s.finishCall name with
    | error fault => simp [pops, hok] at hpops
    | ok result =>
      obtain ⟨reply, s'⟩ := result
      cases reply with
      | ignored => simp [pops, hok] at hpops
      | resume line =>
        have hlen : s.calls.length = l.depth := by simpa [pops, hok] using hpops
        refine ⟨hlen, ?_⟩
        obtain ⟨current, hcurrent, hcalls⟩ := h.innermost hlen
        obtain ⟨f, -, ⟨hignored, -⟩ | ⟨frame, outer, hframe, hname, -⟩⟩ := finishCall_eq_ok hok
        · cases hignored
        · rw [hcalls] at hframe
          cases hframe
          rw [← hname]
          rfl
  | _ => cases hpops

/-- **What pops the call of a round starts the next one**, if there is another item. -/
theorem Running.perform_pop (h : Running l k s) {c : Command} (hpops : s.pops l.depth c = true)
    (hk : k + 1 < l.items.length) : Running l (k + 1) (s.perform c).2 := by
  obtain ⟨hlen, rfl⟩ := h.of_pops hpops
  have hitem := List.getElem?_eq_getElem hk
  rw [Symbols.perform, h.next hlen hitem]
  exact ⟨⟨[], _, hitem, rfl⟩, rfl, h.function⟩

/-- How often some operations pop the call at some depth. -/
def countPops (depth : Nat) (s : Symbols) : List Command → Nat
  | [] => 0
  | c :: rest => (if s.pops depth c then 1 else 0) + countPops depth (s.perform c).2 rest

/-- **During an iteration the rounds are counted by the pops**, by induction on the operations. -/
theorem Running.performAll (h : Running l k s) {cs : List Command} (hcs : ∀ c ∈ cs, c.isReset = false)
    (hk : k + countPops l.depth s cs < l.items.length) :
    Running l (k + countPops l.depth s cs) (s.performAll cs) := by
  induction cs generalizing k s with
  | nil => exact h
  | cons c rest ih =>
    -- The position and the number of pops still to come add up to the same in the next store.
    have hrest : ∀ c ∈ rest, c.isReset = false := fun c hc => hcs c (List.mem_cons_of_mem _ hc)
    rw [countPops] at hk ⊢
    rw [Symbols.performAll]
    cases hpops : s.pops l.depth c with
    | true =>
      rw [hpops, if_pos rfl, ← Nat.add_assoc] at hk
      rw [if_pos rfl, ← Nat.add_assoc]
      exact ih (h.perform_pop hpops (by omega)) hrest hk
    | false =>
      rw [hpops, if_neg Bool.false_ne_true, Nat.zero_add] at hk
      rw [if_neg Bool.false_ne_true, Nat.zero_add]
      exact ih (h.perform (hcs c List.mem_cons_self) hpops) hrest hk

/-! ## Whole iterations -/

/-- An iteration that starts is in its first round. -/
theorem running_of_iterate {items : List Value} {start : Nat}
    (h : s.iterate name items line = .ok (some start, s')) :
    ∃ f p, s.function? name = some f ∧ f.start = start ∧ f.params.head? = some p ∧
      s'.calls.length = s.calls.length + 1 ∧
      Running ⟨name, line, p.name, start, items.map Value.normalized, s.calls⟩ 0 s' := by
  obtain ⟨-, f, p, first, rest, hfunction, rfl, hparam, hitems, -, -, rfl⟩ := iterate_eq_ok h
  refine ⟨f, p, hfunction, rfl, hparam, rfl, ?_⟩
  exact ⟨⟨[], first, by rw [hitems]; rfl, rfl⟩, rfl, f, p, hfunction, rfl, hparam, rfl⟩

/-- **An iteration delivers every item once and in order, and then unwinds.**  It starts on a new call.  After
any operations but resets, `k` of which have popped the call at this depth, the call there is the one for item
`k`, under the calls that the round has made.  Only the `end` of the function pops it, when none of those is left:
it goes back to the body with the next item, or behind the line of the iteration with the calls that were running
before.  Otherwise the `end` of the innermost call goes behind the line of its own caller and leaves the iteration
alone. -/
theorem iteration_delivers {s₁ : Symbols} (hs : Reachable s) {items : List Value} {start : Nat}
    (h : s.iterate name items line = .ok (some start, s₁)) :
    ∃ f p, s.function? name = some f ∧ f.start = start ∧ f.params.head? = some p ∧
      s₁.calls.length = s.calls.length + 1 ∧
      ∀ cs : List Command, (∀ c ∈ cs, c.isReset = false) → ∀ k, countPops s₁.calls.length s₁ cs = k →
        k < items.length → ∃ inner item, (items.map Value.normalized)[k]? = some item ∧
          (s₁.performAll cs).calls = inner ++ ⟨name, line, [(p.name, item)]⟩ :: s.calls ∧
          (s₁.performAll cs).iteration =
            some ⟨name, items.map Value.normalized, k, s₁.calls.length⟩ ∧
          (∀ c, (s₁.performAll cs).pops s₁.calls.length c = true → inner = [] ∧ c = .finishCall name) ∧
          (inner = [] → ∀ next, (items.map Value.normalized)[k + 1]? = some next →
            (s₁.performAll cs).finishCall name = .ok (.resume start, { s₁.performAll cs with
              calls := ⟨name, line, [(p.name, next)]⟩ :: s.calls
              iteration := some ⟨name, items.map Value.normalized, k + 1, s₁.calls.length⟩ })) ∧
          (inner = [] → k + 1 = items.length →
            (s₁.performAll cs).finishCall name = .ok (.resume (line + 1), { s₁.performAll cs with
              calls := s.calls
              iteration := none })) ∧
          (∀ frame inner', inner = frame :: inner' →
            (s₁.performAll cs).finishCall frame.function =
              .ok (.resume (frame.returnLine + 1), { s₁.performAll cs with
                calls := inner' ++ ⟨name, line, [(p.name, item)]⟩ :: s.calls })) := by
  obtain ⟨f, p, hfunction, hstart, hparam, hlen, hrunning⟩ := running_of_iterate h
  refine ⟨f, p, hfunction, hstart, hparam, hlen, ?_⟩
  rintro cs hcs k rfl hk
  have hs₁ : s₁ = (s.perform (.iterate name items line)).2 := by
    rw [Symbols.perform, h]
    rfl
  have hlinked : (s₁.performAll cs).Linked := by
    rw [hs₁]
    exact ((hs.step _).performAll cs).wellFormed.toLinked
  rw [hlen] at hk ⊢
  have hlater := hrunning.performAll hcs (by simpa [Loop.depth] using hk)
  rw [Nat.zero_add] at hlater
  obtain ⟨inner, item, hitem, hcalls⟩ := hlater.calls
  refine ⟨inner, item, hitem, hcalls, hlater.iteration, ?_, ?_, ?_, ?_⟩
  · intro c hpops
    obtain ⟨hinnermost, rfl⟩ := hlater.of_pops hpops
    rw [hcalls, List.length_append, List.length_cons, Loop.depth] at hinnermost
    exact ⟨List.eq_nil_of_length_eq_zero (by omega), rfl⟩
  · rintro rfl next hnext
    exact hlater.next (by rw [hcalls]; rfl) hnext
  · rintro rfl hlast
    refine hlater.over (by rw [hcalls]; rfl) (List.getElem?_eq_none ?_)
    rw [List.length_map]
    exact Nat.le_of_eq hlast.symm
  · rintro frame inner' rfl
    have hinner : (s₁.performAll cs).calls.length ≠ s.calls.length + 1 := by
      rw [hcalls]
      simp only [List.length_append, List.length_cons]
      omega
    obtain ⟨top, outer, htop, hfinish⟩ := hlater.inner hlinked hinner
    rw [hcalls] at htop
    cases htop
    exact hfinish

/-- In the second round the function calls itself; that call returns to its own caller, and its `end` then ends
the iteration. -/
theorem iteration_delivers_under_recursion : ∃ s s₁ : Symbols, Reachable s ∧
    s.iterate "f" [.string "a", .string "b"] 5 = .ok (some 1, s₁) ∧ ∃ p frame item,
      [Value.string "a", Value.string "b"][1]? = some item ∧
      (s₁.performAll [.finishCall "f", .call "f" [.string "c"] 2]).calls =
        [frame, ⟨"f", 5, [(p, item)]⟩] ∧
      (s₁.performAll [.finishCall "f", .call "f" [.string "c"] 2]).finishCall frame.function =
        .ok (.resume (frame.returnLine + 1), { s₁.performAll [.finishCall "f", .call "f" [.string "c"] 2] with
          calls := [⟨"f", 5, [(p, item)]⟩] }) ∧
      ∃ s₂, (s₁.performAll [.finishCall "f", .call "f" [.string "c"] 2, .finishCall "f"]).finishCall "f" =
        .ok (.resume 6, s₂) ∧ s₂.calls = [] ∧ s₂.iteration.isNone = true := by
  let s := ({} : Symbols).performAll [.declareFunction "f" [⟨"x", none⟩] 0, .finishDeclaration 3]
  let s₁ := (s.perform (.iterate "f" [.string "a", .string "b"] 5)).2
  have hreachable : Reachable s := Reachable.empty.performAll _
  have hstart : s.iterate "f" [.string "a", .string "b"] 5 = .ok (some 1, s₁) := rfl
  obtain ⟨f, p, -, -, -, -, hrun⟩ := iteration_delivers hreachable hstart
  obtain ⟨inner, item, hitem, hcalls, -, -, -, -, hinner⟩ :=
    hrun [.finishCall "f", .call "f" [.string "c"] 2] (by decide) 1 (by decide) (by decide)
  obtain ⟨inner', item', -, hcalls', -, -, -, hover, -⟩ :=
    hrun [.finishCall "f", .call "f" [.string "c"] 2, .finishCall "f"] (by decide) 1 (by decide) (by decide)
  have hlen : (s₁.performAll [.finishCall "f", .call "f" [.string "c"] 2]).calls.length = 2 ∧
      (s₁.performAll [.finishCall "f", .call "f" [.string "c"] 2, .finishCall "f"]).calls.length = 1 ∧
      s.calls.isEmpty = true := by decide
  obtain ⟨htwo, hone, hempty⟩ := hlen
  rw [List.isEmpty_iff] at hempty
  rw [hempty] at hcalls hcalls' hover hinner
  rw [hcalls, List.length_append] at htwo
  rw [hcalls', List.length_append] at hone
  obtain ⟨frame, rfl⟩ := List.length_eq_one_iff.mp (Nat.succ.inj htwo)
  obtain rfl : inner' = [] := List.eq_nil_of_length_eq_zero (Nat.succ.inj hone)
  exact ⟨s, s₁, hreachable, hstart, p.name, frame, item, hitem, hcalls, hinner frame [] rfl, _,
    hover rfl rfl, rfl, rfl⟩

end LineScript.Symbols
