/-
# Calls that a host injects

While a script runs, the cursor is on its next line whenever a host can do something.  A call that a line of the host
makes is entered with this line as the line of the call, as if the script had made it there; so the run comes back
behind the line that was pending, and never executes it.

* `Turn.under`: what a line does to the calls above a call and to the call itself;
* `Within.under`: the call stays while more calls are active than before it, whatever its body does;
* `injected_call_skips_line`: where the run goes on behind an injected call, or behind the last round of an injected
  iteration.
-/
import LineScript.Proofs.Machine.Turn

namespace LineScript

open Act

/-! ## Calls under others -/

/-- Among the calls is one from some line, outside of which there are the outer calls. -/
def Under (line : Nat) (outer calls : Calls) : Prop :=
  ∃ inner frame, frame.returnLine = line ∧ calls = inner ++ frame :: outer

theorem Under.length_lt {line : Nat} {outer calls : Calls} (h : Under line outer calls) :
    outer.length < calls.length := by
  obtain ⟨inner, frame, -, rfl⟩ := h
  rw [List.length_append, List.length_cons]
  omega

theorem Under.push {line : Nat} {outer calls : Calls} (h : Under line outer calls) (frame : Frame) :
    Under line outer (frame :: calls) := by
  obtain ⟨inner, own, hline, rfl⟩ := h
  exact ⟨frame :: inner, own, hline, rfl⟩

/-- The innermost call returns: it is one above, or the call itself. -/
theorem Under.pop {line : Nat} {outer rest : Calls} {frame : Frame} (h : Under line outer (frame :: rest)) :
    Under line outer rest ∨ (rest = outer ∧ frame.returnLine = line) := by
  obtain ⟨inner, own, hline, hcalls⟩ := h
  cases inner with
  | nil =>
    obtain ⟨rfl, rfl⟩ := List.cons.inj hcalls
    exact Or.inr ⟨rfl, hline⟩
  | cons first inner =>
    obtain ⟨-, rfl⟩ := List.cons.inj hcalls
    exact Or.inl ⟨inner, own, hline, rfl⟩

/-- The innermost call is made once more, from the same line. -/
theorem Under.again {line : Nat} {outer rest : Calls} {frame frame' : Frame}
    (h : Under line outer (frame :: rest)) (hline : frame'.returnLine = frame.returnLine) :
    Under line outer (frame' :: rest) := by
  rcases h.pop with hrest | ⟨rfl, hown⟩
  · exact hrest.push frame'
  · exact ⟨[], frame', hline.trans hown, rfl⟩

namespace Machine

/-- **What a line does to a call**: it leaves it among the calls, it returns from it, or it resets the machine. -/
theorem Turn.under {m k : Machine} {keywords : List String} {next : Option Nat} (h : m.Turn keywords next k)
    {line : Nat} {outer : Calls} (hunder : Under line outer m.symbols.calls) :
    Under line outer k.symbols.calls ∨ (k.symbols.calls = outer ∧ next = some (line + 1)) ∨
      (k.symbols.calls = [] ∧ next = some 0 ∧ ("stop" ∈ keywords ∨ "restart" ∈ keywords)) := by
  cases h with
  | steady hk =>
    rw [hk.calls]
    exact Or.inl hunder
  | called name args start s hcall hnext hk =>
    obtain ⟨f, frame, -, -, -, -, -, -, rfl⟩ := Symbols.call_eq_ok hcall
    rw [hk.calls]
    exact Or.inl (hunder.push frame)
  | iterated name items start s hok hnext hk =>
    obtain ⟨-, f, p, first, rest, -, -, -, -, -, -, rfl⟩ := Symbols.iterate_eq_ok hok
    rw [hk.calls]
    exact Or.inl (hunder.push _)
  | returned name target s hok hnext hk =>
    rw [hk.calls]
    -- The innermost call is popped, or it is the next round of an iteration.
    have hpop : ∀ {frame : Frame} {rest : Calls}, m.symbols.calls = frame :: rest → target = frame.returnLine + 1 →
        Under line outer rest ∨ (rest = outer ∧ next = some (line + 1)) := by
      intro frame rest hcalls htarget
      rw [hcalls] at hunder
      refine hunder.pop.imp_right fun ⟨hrest, hline⟩ => ⟨hrest, ?_⟩
      rw [hnext, htarget, hline]
    obtain ⟨f, -, ⟨hreply, -⟩ | ⟨frame, rest, hcalls, -, ⟨-, hreply, rfl⟩ | ⟨it, -, ⟨item, p, -, -, -, rfl⟩ |
      ⟨-, hreply, rfl⟩⟩⟩⟩ := Symbols.finishCall_eq_ok hok
    · cases hreply
    · cases hreply
      exact (hpop hcalls rfl).imp_right Or.inl
    · rw [hcalls] at hunder
      exact Or.inl (hunder.again rfl)
    · cases hreply
      exact (hpop hcalls rfl).imp_right Or.inl
  | halted mode hkeyword hmode hnext hk =>
    rw [hk.calls]
    exact Or.inl hunder
  | reset mode hmode hnext hk =>
    exact Or.inr (Or.inr ⟨hk.calls, hnext, hmode.imp And.right And.right⟩)

/-- **What a line does that makes a call**: the call is made from the line under the cursor, and the run goes on with
the body of the function. -/
theorem Turn.grown {m k : Machine} {keywords : List String} {next : Option Nat} (h : m.Turn keywords next k)
    (hgrown : m.symbols.calls.length < k.symbols.calls.length) :
    ∃ frame f, k.symbols.calls = frame :: m.symbols.calls ∧ frame.returnLine = m.cursor ∧
      m.symbols.function? frame.function = some f ∧ next = some f.start ∧ k.mode = m.mode := by
  have hsame : k.symbols.calls ≠ m.symbols.calls := by
    intro hcalls
    rw [hcalls] at hgrown
    exact Nat.lt_irrefl _ hgrown
  cases h with
  | steady hk => exact absurd hk.calls hsame
  | called name args start s hcall hnext hk =>
    obtain ⟨f, frame, hf, rfl, rfl, hline, -, -, rfl⟩ := Symbols.call_eq_ok hcall
    exact ⟨frame, f, hk.calls, hline, hf, hnext, hk.mode⟩
  | iterated name items start s hok hnext hk =>
    obtain ⟨-, f, p, first, rest, hf, rfl, -, -, -, -, rfl⟩ := Symbols.iterate_eq_ok hok
    exact ⟨_, f, hk.calls, rfl, hf, hnext, hk.mode⟩
  | returned name target s hok hnext hk =>
    rw [hk.calls] at hgrown
    obtain ⟨f, -, ⟨hreply, -⟩ | ⟨frame, rest, hcalls, -, ⟨-, -, rfl⟩ | ⟨it, -, ⟨item, p, -, -, -, rfl⟩ |
      ⟨-, -, rfl⟩⟩⟩⟩ := Symbols.finishCall_eq_ok hok
    · cases hreply
    all_goals
      simp only [hcalls, List.length_cons] at hgrown
      omega
  | halted mode hkeyword hmode hnext hk => exact absurd hk.calls hsame
  | reset mode hmode hnext hk =>
    rw [hk.calls] at hgrown
    exact absurd hgrown (Nat.not_lt_zero _)

/-! ## Bodies of calls -/

/-- Lines without statement make and leave no calls. -/
theorem pass_calls (m : Machine) (line : String) : (m.pass line).symbols.calls = m.symbols.calls := by
  unfold pass
  dsimp only
  split_ifs
  · rfl
  · split
    · split_ifs
      · unfold Symbols.finishDeclaration
        split <;> rfl
      · rfl
    · rfl

/-- A move that succeeds leaves the calls as they are, or it runs a line of the script. -/
theorem Move.calls {m : Machine} {t : Stretch} (h : m.Move t) (hok : t.faults = []) :
    t.last.symbols.calls = m.symbols.calls ∨ ∃ line next k, m.script.lines[m.cursor]? = some line ∧
      Machine.runLine (invoke m.nesting) line m.onLine = (.ok next, k) ∧ m.onLine.Turn (m.words line) next k ∧
      t.last = { k with cursor := next.getD (m.cursor + 1) } := by
  cases h with
  | counted left hmode => exact Or.inl rfl
  | ended hmode hline => exact Or.inl rfl
  | passed line hmode hline => exact Or.inl (m.pass_calls line)
  | ran line next k hmode hline hrun hturn => exact Or.inr ⟨line, next, k, hline, hrun, hturn, rfl⟩
  | failed line f k hmode hline hplace => cases hok

/-- **A move that leaves a call** returns behind its line, or it resets the machine; an `end` does the former. -/
theorem Plain.popped {m : Machine} (hm : m.Plain) {t : Stretch} (ht : m.advance = some t) (hok : t.faults = [])
    {line : Nat} {outer : Calls} (hunder : Under line outer m.symbols.calls)
    (hpopped : t.last.symbols.calls.length ≤ outer.length) :
    ((t.last.symbols.calls = outer ∧ t.last.cursor = line + 1) ∨
      (t.last.symbols.calls = [] ∧ t.last.cursor = 0 ∧ ∃ text, m.script.lines[m.cursor]? = some text ∧
        ("stop" ∈ m.words text ∨ "restart" ∈ m.words text))) ∧
    ∀ s, m.cursorStatement? = some s → s.keyword.text = "end" →
      t.last.symbols.calls = outer ∧ t.last.cursor = line + 1 := by
  rcases (hm.move ht).calls hok with hsame | ⟨text, next, k, htext, hrun, hturn, hlast⟩
  · rw [hsame] at hpopped
    exact absurd hunder.length_lt (Nat.not_lt.mpr hpopped)
  · rw [hlast] at hpopped ⊢
    have hleft : ∀ {keywords : List String}, m.onLine.Turn keywords next k →
        (k.symbols.calls = outer ∧ next.getD (m.cursor + 1) = line + 1) ∨
          (k.symbols.calls = [] ∧ next.getD (m.cursor + 1) = 0 ∧ ("stop" ∈ keywords ∨ "restart" ∈ keywords)) := by
      intro keywords hkeywords
      rcases hkeywords.under hunder with hstays | ⟨hcalls, rfl⟩ | ⟨hcalls, rfl, hreset⟩
      · exact absurd hstays.length_lt (Nat.not_lt.mpr hpopped)
      · exact Or.inl ⟨hcalls, rfl⟩
      · exact Or.inr ⟨hcalls, rfl, hreset⟩
    refine ⟨(hleft hturn).imp_right fun ⟨hcalls, hcursor, hreset⟩ => ⟨hcalls, hcursor, text, htext, hreset⟩, ?_⟩
    intro s hs hend
    have hstatement : m.onLine.statement? text = some s := by
      rw [cursorStatement?, htext] at hs
      exact hs
    have hclosed : ∀ b, Builtin.ofName? s.keyword.text = some b → b.opensCode = false := by
      rw [hend]
      rintro b ⟨⟩
      rfl
    have hturn' := (hm.onLine.turn_statement (invoke m.nesting) hstatement hclosed).of_ok hrun
    rw [hend] at hturn'
    rcases hleft hturn' with hreturned | ⟨-, -, hreset⟩
    · exact hreturned
    · simp at hreset

/-- A script goes on without fault, its host giving it input on the way, and all along more than some number of
calls are active. -/
inductive Within (m : Machine) (depth : Nat) : Machine → Prop
  | here : depth < m.symbols.calls.length → Within m depth m
  | move {k : Machine} {t : Stretch} : Within m depth k → k.advance = some t → t.faults = [] →
      depth < t.last.symbols.calls.length → Within m depth t.last
  | pause {k : Machine} : Within m depth k → Within m depth k.pause
  | resume {k : Machine} : Within m depth k → Within m depth k.resume
  | deliverKey {k : Machine} (key : String) : Within m depth k → Within m depth (k.deliverKey key)
  | provide {k : Machine} (name : String) (value : Value) : Within m depth k → Within m depth (k.provide name value)
  | print {k : Machine} (message : String) : Within m depth k → Within m depth (k.print message)

theorem Within.course {m k : Machine} {depth : Nat} (h : m.Within depth k) : m.Course k := by
  induction h with
  | here _ => exact .here
  | move _ hmove hok _ ih => exact ih.move hmove hok
  | pause _ ih => exact ih.pause
  | resume _ ih => exact ih.resume
  | deliverKey key _ ih => exact ih.deliverKey key
  | provide name value _ ih => exact ih.provide name value
  | print message _ ih => exact ih.print message

/-- **A call stays among the calls while there are more than before it**, by induction on the moves of its body. -/
theorem Within.under {m k : Machine} {line : Nat} {outer : Calls} (h : m.Within outer.length k) (hm : m.Reachable)
    (hunder : Under line outer m.symbols.calls) : Under line outer k.symbols.calls := by
  induction h with
  | here _ => exact hunder
  | @move k t hk hmove hok hdepth ih =>
    rcases ((hk.course.reachable hm).plain.move hmove).calls hok with hsame | ⟨text, next, l, -, -, hturn, hlast⟩
    · rw [hsame]
      exact ih
    · rw [hlast] at hdepth ⊢
      rcases hturn.under ih with hstays | ⟨hcalls, -⟩ | ⟨hcalls, -, -⟩
      · exact hstays
      · rw [hcalls] at hdepth
        exact absurd hdepth (Nat.lt_irrefl _)
      · rw [hcalls] at hdepth
        exact absurd hdepth (Nat.not_lt_zero _)
  | @pause k _ ih =>
    have hcalls : k.pause.symbols.calls = k.symbols.calls := by
      unfold Machine.pause
      split <;> rfl
    rw [hcalls]
    exact ih
  | @resume k _ ih =>
    have hcalls : k.resume.symbols.calls = k.symbols.calls := by
      unfold Machine.resume
      split <;> rfl
    rw [hcalls]
    exact ih
  | @deliverKey k key _ ih =>
    have hcalls : (k.deliverKey key).symbols.calls = k.symbols.calls := by
      unfold Machine.deliverKey
      dsimp only
      split <;> rfl
    rw [hcalls]
    exact ih
  | provide name value _ ih => exact ih
  | print message _ ih => exact ih

/-! ## Calls that a host injects -/

/-- A line of the host that makes a call makes it from the line that is pending. -/
theorem Plain.injects {m m₁ : Machine} (hm : m.Plain) {text : String} (h : Machine.execute text m = (.ok (), m₁))
    (hgrown : m.symbols.calls.length < m₁.symbols.calls.length) :
    ∃ frame f, m₁.symbols.calls = frame :: m.symbols.calls ∧ frame.returnLine = m.cursor ∧
      m.symbols.function? frame.function = some f ∧ m₁.cursor = f.start ∧ m₁.mode = m.mode := by
  rcases (hm.turn_execute text).of_ok h with rfl | ⟨next, l, hturn, rfl⟩
  · exact absurd hgrown (Nat.lt_irrefl _)
  · obtain ⟨frame, f, hcalls, hline, hf, rfl, hmode⟩ := hturn.grown hgrown
    exact ⟨frame, f, hcalls, hline, hf, rfl, hmode⟩

/-- **A call that a host injects skips the line that is pending.**  The call, or the first round of an iteration, is
made from that line and enters the body of the function.  When the body goes on without fault, a line that leaves as
many calls as before comes back behind the pending line, which the next move does not execute, or it has reset the
machine; if it is an `end`, it comes back. -/
theorem injected_call_skips_line {m m₁ : Machine} (hm : m.Reachable) (hmode : m.mode = .running) {text : String}
    (hcall : Machine.execute text m = (.ok (), m₁)) (hgrown : m.symbols.calls.length < m₁.symbols.calls.length) :
    (∃ frame f, m₁.symbols.calls = frame :: m.symbols.calls ∧ frame.returnLine = m.cursor ∧
      m.symbols.function? frame.function = some f ∧ m₁.cursor = f.start ∧ m₁.mode = .running) ∧
    ∀ k t, m₁.Within m.symbols.calls.length k → k.advance = some t → t.faults = [] →
      t.last.symbols.calls.length ≤ m.symbols.calls.length →
      ((t.last.symbols.calls = m.symbols.calls ∧ t.last.cursor = m.cursor + 1) ∨
        (t.last.symbols.calls = [] ∧ t.last.cursor = 0 ∧ ∃ line, k.script.lines[k.cursor]? = some line ∧
          ("stop" ∈ k.words line ∨ "restart" ∈ k.words line))) ∧
      ∀ s, k.cursorStatement? = some s → s.keyword.text = "end" →
        t.last.symbols.calls = m.symbols.calls ∧ t.last.cursor = m.cursor + 1 ∧
          ∀ u, t.last.advance = some u → m.cursor ∉ u.lines := by
  obtain ⟨frame, f, hcalls, hline, hf, hstart, hsame⟩ := hm.plain.injects hcall hgrown
  have hm₁ : m₁.Reachable := by
    have hreach := hm.execute text
    rw [hcall] at hreach
    exact hreach
  refine ⟨⟨frame, f, hcalls, hline, hf, hstart, hsame.trans hmode⟩, fun k t hk ht hok hpopped => ?_⟩
  have hunder : Under m.cursor m.symbols.calls k.symbols.calls := hk.under hm₁ ⟨[], frame, hline, hcalls⟩
  have hplain := (hk.course.reachable hm₁).plain
  obtain ⟨hleft, hend⟩ := hplain.popped ht hok hunder hpopped
  refine ⟨hleft, fun s hs hkeyword => ?_⟩
  obtain ⟨houter, hcursor⟩ := hend s hs hkeyword
  refine ⟨houter, hcursor, fun u hu hmem => ?_⟩
  obtain ⟨-, hlines⟩ := ((hplain.advance ht).move hu).lines_eq (List.ne_nil_of_mem hmem)
  rw [hlines, hcursor, List.mem_singleton] at hmem
  omega

theorem within_one {m k l : Machine} {depth : Nat} (h : m.Within depth k) (hl : (k.stretch 1).last = l)
    (hok : (k.stretch 1).faults = []) (hdepth : depth < l.symbols.calls.length) : m.Within depth l := by
  subst hl
  cases hmove : k.advance with
  | none =>
    rw [stretch_of_rest hmove]
    exact h
  | some t =>
    rw [stretch_one hmove] at hok hdepth ⊢
    exact h.move hmove hok hdepth

theorem execute_of_isOk {m : Machine} {text : String} (h : (Machine.execute text m).1.isOk = true) :
    Machine.execute text m = (.ok (), (Machine.execute text m).2) := by
  rcases hcall : Machine.execute text m with ⟨f | x, k⟩
  · rw [hcall] at h
    cases h
  · rfl

/-- A script with its cursor on the line behind the body of a function. -/
def behindBody : Machine :=
  ((started "function f x:any\nlog in\nend f\nlog one\nlog two").stretch 3).last

theorem behindBody_reachable : behindBody.Reachable := (started_reachable _).stretch 3

/-- An iteration over two elements, line by line up to the `end` of its last round. -/
theorem injected_call_skips_line_of_iteration : ∃ (m₁ k : Machine) (t : Stretch) (s : Statement),
    behindBody.Reachable ∧ behindBody.mode = .running ∧
    Machine.execute "iterate [a|b] with f" behindBody = (.ok (), m₁) ∧
    behindBody.symbols.calls.length < m₁.symbols.calls.length ∧
    m₁.Within behindBody.symbols.calls.length k ∧ k.advance = some t ∧ t.faults = [] ∧
    t.last.symbols.calls.length ≤ behindBody.symbols.calls.length ∧
    k.cursorStatement? = some s ∧ s.keyword.text = "end" ∧ t.last.cursor = behindBody.cursor + 1 := by
  let m₁ := (Machine.execute "iterate [a|b] with f" behindBody).2
  let k₁ := (m₁.stretch 1).last
  let k₂ := (k₁.stretch 1).last
  let k := (k₂.stretch 1).last
  have hchecks : behindBody.mode = .running ∧ (Machine.execute "iterate [a|b] with f" behindBody).1.isOk = true ∧
      behindBody.symbols.calls.length = 0 ∧ 0 < m₁.symbols.calls.length ∧
      (m₁.stretch 1).faults = [] ∧ 0 < k₁.symbols.calls.length ∧
      (k₁.stretch 1).faults = [] ∧ 0 < k₂.symbols.calls.length ∧
      (k₂.stretch 1).faults = [] ∧ 0 < k.symbols.calls.length ∧
      k.advance.any (fun t => t.faults.isEmpty && t.last.symbols.calls.isEmpty) = true ∧
      (k.cursorStatement?).map (·.keyword.text) = some "end" := by
    decide +kernel
  obtain ⟨hmode, hok, hnone, hdepth, hok₁, hdepth₁, hok₂, hdepth₂, hok₃, hdepth₃, hmove, hend⟩ := hchecks
  have hcall : Machine.execute "iterate [a|b] with f" behindBody = (.ok (), m₁) := execute_of_isOk hok
  have hwithin₁ : m₁.Within 0 k₁ := within_one (.here hdepth) rfl hok₁ hdepth₁
  have hwithin₂ : m₁.Within 0 k₂ := within_one hwithin₁ rfl hok₂ hdepth₂
  have hwithin : m₁.Within 0 k := within_one hwithin₂ rfl hok₃ hdepth₃
  obtain ⟨t, ht, hpops⟩ := (Option.any_eq_true _ _).mp hmove
  rw [Bool.and_eq_true, List.isEmpty_iff, List.isEmpty_iff] at hpops
  obtain ⟨s, hs, hkeyword⟩ := Option.map_eq_some_iff.mp hend
  have hgrown : behindBody.symbols.calls.length < m₁.symbols.calls.length := by
    rw [hnone]
    exact hdepth
  rw [← hnone] at hwithin
  have hpopped : t.last.symbols.calls.length ≤ behindBody.symbols.calls.length := by
    rw [hpops.2]
    exact Nat.zero_le _
  obtain ⟨-, hskips⟩ := injected_call_skips_line behindBody_reachable hmode hcall hgrown
  obtain ⟨-, hends⟩ := hskips k t hwithin ht hpops.1 hpopped
  exact ⟨m₁, k, t, s, behindBody_reachable, hmode, hcall, hgrown, hwithin, ht, hpops.1, hpopped, hs, hkeyword,
    (hends s hs hkeyword).2.1⟩

/-- The pending line of a script is left out: a host calls a function, its body runs to its `end`, and the cursor is
behind the line that was pending. -/
theorem pending_line_left_out : ∃ (m m₁ k : Machine) (t : Stretch), m.Reachable ∧ m.mode = .running ∧
    Machine.execute "execute f a" m = (.ok (), m₁) ∧ m₁.Within m.symbols.calls.length k ∧
    (k.cursorStatement?).map (·.keyword.text) = some "end" ∧ k.advance = some t ∧ t.faults = [] ∧
    t.last.symbols.calls = m.symbols.calls ∧ t.last.cursor ≠ m.cursor := by
  let m₁ := (Machine.execute "execute f a" behindBody).2
  let k := (m₁.stretch 1).last
  have hchecks : behindBody.mode = .running ∧ (Machine.execute "execute f a" behindBody).1.isOk = true ∧
      behindBody.symbols.calls.length = 0 ∧ 0 < m₁.symbols.calls.length ∧
      (m₁.stretch 1).faults = [] ∧ 0 < k.symbols.calls.length ∧
      (k.cursorStatement?).map (·.keyword.text) = some "end" ∧
      k.advance.any (fun t => t.faults.isEmpty && t.last.symbols.calls.isEmpty &&
        t.last.cursor != behindBody.cursor) = true := by
    decide +kernel
  obtain ⟨hmode, hok, hnone, hdepth, hok₁, hdepth₁, hend, hmove⟩ := hchecks
  have hwithin : m₁.Within 0 k := within_one (.here hdepth) rfl hok₁ hdepth₁
  obtain ⟨t, ht, hpops⟩ := (Option.any_eq_true _ _).mp hmove
  rw [Bool.and_eq_true, Bool.and_eq_true, List.isEmpty_iff, List.isEmpty_iff, bne_iff_ne] at hpops
  obtain ⟨⟨hfaults, hcalls⟩, hcursor⟩ := hpops
  rw [← hnone] at hwithin
  rw [← List.eq_nil_of_length_eq_zero hnone] at hcalls
  exact ⟨behindBody, m₁, k, t, behindBody_reachable, hmode, execute_of_isOk hok, hwithin, hend, ht, hfaults, hcalls,
    hcursor⟩

end Machine

end LineScript
