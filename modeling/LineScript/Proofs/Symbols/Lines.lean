/-
# Lines that the store keeps

The store keeps numbers of lines: where the body of a function begins and ends, and from which line a call was made.
They follow different conventions (a body begins behind its `function` line, a return goes on behind the line of the
call, a later pass goes on behind the `end`), but all of them name lines of the script (`Symbols.InScript`), and so do
the lines that operations answer with.

* `InScript.declareFunction`, `InScript.finishDeclaration`: a body begins and ends inside of the script;
* `InScript.call`, `InScript.iterate`, `InScript.finishCall`: calls begin and return inside of the script.
-/
import LineScript.Proofs.Symbols.Operation

namespace LineScript

/-! ## Functions in a script -/

/-- The body of a function lies in a script of so many lines; a body may begin behind the last line. -/
structure Function.InScript (f : Function) (lines : Nat) : Prop where
  start : f.start ≤ lines
  finish : ∀ e, f.finish = some e → f.start ≤ e ∧ e < lines
  /-- A function that is ended has its last line. -/
  ended : f.ended = true → f.finish.isSome = true

namespace Symbols

/-- All lines that a store keeps are lines of a script of so many lines. -/
structure InScript (s : Symbols) (lines : Nat) : Prop where
  functions : ∀ name f, s.functions.find? name = some f → f.InScript lines
  calls : ∀ frame ∈ s.calls, frame.returnLine < lines

/-- The body that is being passed over begins no later than on this line. -/
def OpenedBefore (s : Symbols) (line : Nat) : Prop :=
  ∀ name f, s.declaring = some name → s.functions.find? name = some f → f.start ≤ line

variable {s s' : Symbols} {lines line : Nat} {name : String}

theorem inScript_empty (lines : Nat) : InScript {} lines where
  functions := by
    rintro name f ⟨⟩
  calls := by
    rintro frame ⟨⟩

theorem OpenedBefore.of_declaring (h : s.declaring = none) (line : Nat) : s.OpenedBefore line := by
  intro name f hname
  rw [h] at hname
  cases hname

theorem OpenedBefore.mono {later : Nat} (h : s.OpenedBefore line) (hle : line ≤ later) : s.OpenedBefore later :=
  fun name f hname hfound => Nat.le_trans (h name f hname hfound) hle

/-- What looks only at functions and calls is the same for stores that have the same ones. -/
theorem InScript.of_same (h : s.InScript lines) (hfunctions : s'.functions = s.functions)
    (hcalls : s'.calls = s.calls) : s'.InScript lines := by
  constructor
  · rw [hfunctions]
    exact h.functions
  · rw [hcalls]
    exact h.calls

theorem OpenedBefore.of_same (h : s.OpenedBefore line) (hfunctions : s'.functions = s.functions)
    (hdeclaring : s'.declaring = s.declaring) : s'.OpenedBefore line := by
  intro name f hname hfound
  rw [hdeclaring] at hname
  rw [hfunctions] at hfound
  exact h name f hname hfound

theorem InScript.function? (h : s.InScript lines) {f : Function} (hf : s.function? name = some f) :
    f.InScript lines :=
  h.functions name f (function?_eq_some hf).1

/-! ## Declarations -/

/-- **One more function in the script.** -/
theorem InScript.enter (h : s.InScript lines) {f : Function} (hf : f.InScript lines) (declaring : Option String) :
    InScript { s with functions := s.functions.enter name f, declaring := declaring } lines where
  functions := by
    intro other g hg
    by_cases hname : other = name
    · rw [hname, Catalog.find?_enter_self] at hg
      cases hg
      exact hf
    · rw [Catalog.find?_enter_of_ne _ hname] at hg
      exact h.functions other g hg
  calls := h.calls

/-- **A body begins behind its `function` line**, or the run goes on behind the body of an earlier pass. -/
theorem InScript.declareFunction (h : s.InScript lines) (hline : line < lines) {params : List Parameter} {d : Declared}
    (hok : s.declareFunction name params line = .ok (d, s')) :
    s'.InScript lines ∧
      (d = .skip ∧ s'.OpenedBefore (line + 1) ∨
        ∃ next, d = .resume next ∧ next ≤ lines ∧ s'.declaring = s.declaring) := by
  obtain ⟨-, ⟨rfl, rfl⟩ | ⟨f, finish, hfound, hfinish, -, rfl, rfl⟩⟩ := declareFunction_eq_ok hok
  · have hbody : Function.InScript { start := line + 1, params := params } lines :=
      ⟨hline, by rintro e ⟨⟩, by rintro ⟨⟩⟩
    refine ⟨h.enter hbody _, Or.inl ⟨rfl, ?_⟩⟩
    rintro _ f ⟨⟩ hfound
    rw [Catalog.find?_enter_self] at hfound
    cases hfound
    exact Nat.le_refl _
  · have hf := h.functions name f hfound
    have hend := (hf.finish finish hfinish).2
    have hkept : Function.InScript { f with declared := true, params := params } lines :=
      ⟨hf.start, hf.finish, hf.ended⟩
    exact ⟨h.enter hkept _, Or.inr ⟨finish + 1, rfl, hend, rfl⟩⟩

/-- **A body ends on a line of the script**, no earlier than where it begins. -/
theorem InScript.finishDeclaration (h : s.InScript lines) (hopened : s.OpenedBefore line) (hline : line < lines) :
    (s.finishDeclaration line).InScript lines ∧ (s.finishDeclaration line).declaring = none := by
  unfold Symbols.finishDeclaration
  cases hname : s.declaring with
  | none => exact ⟨h, hname⟩
  | some name =>
    dsimp only
    cases hfound : s.functions.find? name with
    | none => exact ⟨⟨h.functions, h.calls⟩, rfl⟩
    | some f =>
      have hf := h.functions name f hfound
      have hstart := hopened name f hname hfound
      have hclosed : Function.InScript { f with finish := some line, ended := true } lines := by
        refine ⟨hf.start, ?_, fun _ => rfl⟩
        rintro e ⟨⟩
        exact ⟨hstart, hline⟩
      exact ⟨h.enter hclosed _, rfl⟩

/-! ## Calls -/

/-- Other calls from lines of the script. -/
theorem InScript.withCalls (h : s.InScript lines) {calls : Calls} (hcalls : ∀ frame ∈ calls, frame.returnLine < lines)
    (it : Option Iteration) : InScript { s with calls := calls, iteration := it } lines :=
  ⟨h.functions, hcalls⟩

/-- **A call goes on where a body begins.** -/
theorem InScript.call (h : s.InScript lines) (hline : line < lines) {args : List Value} {start : Nat}
    (hok : s.call name args line = .ok (start, s')) :
    start ≤ lines ∧ s'.InScript lines ∧ s'.declaring = s.declaring := by
  obtain ⟨f, frame, hfound, rfl, -, rfl, -, -, rfl⟩ := call_eq_ok hok
  exact ⟨(h.function? hfound).start, h.withCalls (List.forall_mem_cons.mpr ⟨hline, h.calls⟩) s.iteration, rfl⟩

/-- **The first round of an iteration goes on where a body begins.** -/
theorem InScript.iterate (h : s.InScript lines) (hline : line < lines) {items : List Value} {start : Nat}
    (hok : s.iterate name items line = .ok (some start, s')) :
    start ≤ lines ∧ s'.InScript lines ∧ s'.declaring = s.declaring := by
  obtain ⟨-, f, p, first, rest, hfound, rfl, -, -, -, -, rfl⟩ := iterate_eq_ok hok
  exact ⟨(h.function? hfound).start, h.withCalls (List.forall_mem_cons.mpr ⟨hline, h.calls⟩) _, rfl⟩

/-- **A return goes on behind the line of the call**, or with the next round where the body begins. -/
theorem InScript.finishCall (h : s.InScript lines) {next : Nat}
    (hok : s.finishCall name = .ok (.resume next, s')) :
    next ≤ lines ∧ s'.InScript lines ∧ s'.declaring = s.declaring := by
  obtain ⟨f, hfound, ⟨hreply, -⟩ | ⟨frame, outer, hcalls, -, hcases⟩⟩ := finishCall_eq_ok hok
  · cases hreply
  have hframes : ∀ g ∈ frame :: outer, g.returnLine < lines := hcalls ▸ h.calls
  obtain ⟨hframe, houter⟩ := List.forall_mem_cons.mp hframes
  rcases hcases with ⟨-, hreply, rfl⟩ | ⟨it, -, ⟨item, p, -, -, hreply, rfl⟩ | ⟨-, hreply, rfl⟩⟩
  · cases hreply
    exact ⟨hframe, h.withCalls houter s.iteration, rfl⟩
  · -- The next round returns to the line that the round before would have returned to.
    cases hreply
    have hnext : ∀ g ∈ (⟨name, frame.returnLine, [(p.name, item)]⟩ :: outer : Calls), g.returnLine < lines :=
      List.forall_mem_cons.mpr ⟨hframe, houter⟩
    exact ⟨(h.function? hfound).start, h.withCalls hnext _, rfl⟩
  · cases hreply
    exact ⟨hframe, h.withCalls houter none, rfl⟩

/-! ## Resets -/

/-- Functions of an earlier pass keep their bodies. -/
theorem InScript.resetPass (h : s.InScript lines) : s.resetPass.InScript lines where
  functions := by
    intro name f hf
    unfold Symbols.resetPass at hf
    dsimp only at hf
    rw [Catalog.find?_map] at hf
    obtain ⟨g, hg, rfl⟩ := Option.map_eq_some_iff.mp hf
    have hbody := h.functions name g hg
    exact ⟨hbody.start, hbody.finish, hbody.ended⟩
  calls := by
    rintro frame ⟨⟩

theorem inScript_clear (s : Symbols) (lines : Nat) : s.clear.InScript lines := by
  constructor
  · rintro name f ⟨⟩
  · rintro frame ⟨⟩

end Symbols

end LineScript
