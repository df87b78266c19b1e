/-
# Countdowns

A line `pause N` lets the run wait for `N` ticks.  Meanwhile the host may pause and resume the run, deliver keys,
provide globals and write messages, in any order.  The ticks that are left move to the saved wait when the run is paused,
and back when it is resumed; nothing but a tick of a run that is not paused takes one away.

* `CountsDown.perform`: what one such call does to a countdown;
* `CountsDown.performAll`: what a row of them does, by induction on the calls;
* `CountsDown.last_tick`: what the tick does that ends it;
* `advance_pause`: a line that pauses for some ticks begins a countdown of as many;
* `countdown_lasts`: the main statement.
-/
import LineScript.Proofs.Decimal.Whole
import LineScript.Proofs.Machine.Keywords
import LineScript.Proofs.Machine.Suspension

namespace LineScript

open Act

/-! ## Calls during a countdown -/

namespace HostCall

/-- A call that neither loads, starts nor stops anything and runs no line of the host. -/
def isAside : HostCall → Bool
  | tick | pause | resume | deliverKey _ | provide _ _ | print _ => true
  | load _ _ | start _ | startWith _ _ | run _ _ | stop | execute _ => false

/-- A tick of a run that is not paused. -/
def isOpenTick (c : HostCall) (m : Machine) : Bool :=
  match c with
  | tick => m.mode != .paused
  | _ => false

/-- How many ticks in a row of calls come while the run is not paused. -/
def openTicks : List HostCall → Machine → Nat
  | [], _ => 0
  | c :: rest, m =>
    match c.perform m with
    | some (_, k) => (c.isOpenTick m).toNat + openTicks rest k
    | none => 0

theorem openTicks_cons {c : HostCall} {m k : Machine} {answer : Except Fault Unit} (h : c.perform m = some (answer, k))
    (rest : List HostCall) : openTicks (c :: rest) m = (c.isOpenTick m).toNat + openTicks rest k := by
  rw [openTicks, h]

end HostCall

/-- Such a call comes back. -/
theorem HostCall.perform_of_isAside {c : HostCall} (hc : c.isAside = true) (m : Machine) :
    ∃ answer k, c.perform m = some (answer, k) := by
  cases c with
  | load _ _ | start _ | startWith _ _ | run _ _ | stop | execute _ => cases hc
  | tick | pause | resume | deliverKey _ | provide _ _ | print _ => exact ⟨_, _, rfl⟩

namespace Machine

/-- The script stands still: only the stage of the run has changed, and what the host writes. -/
def StandsStill (m k : Machine) : Prop :=
  k = { m with
    mode := k.mode
    savedWait := k.savedWait
    symbols := { m.symbols with globals := k.symbols.globals }
    console := k.console
    lastKey := k.lastKey
    events := k.events }

theorem StandsStill.refl (m : Machine) : m.StandsStill m := rfl

theorem StandsStill.trans {m k l : Machine} (h : m.StandsStill k) (h' : k.StandsStill l) : m.StandsStill l := by
  unfold StandsStill at h h' ⊢
  rw [h] at h'
  exact h'

theorem StandsStill.cursor {m k : Machine} (h : m.StandsStill k) : k.cursor = m.cursor := by
  unfold StandsStill at h
  rw [h]

theorem standsStill_deliverKey (key : String) (m : Machine) : m.StandsStill (m.deliverKey key) := by
  unfold deliverKey
  dsimp only
  split <;> rfl

/-- The run waits for some ticks, or it is paused with that wait saved. -/
def CountsDown (left : Nat) (m : Machine) : Prop :=
  m.mode = .waiting (.ticks left) ∨ (m.mode = .paused ∧ m.savedWait = some (.ticks left))

theorem CountsDown.of_same {left : Nat} {m k : Machine} (h : m.CountsDown left) (hmode : k.mode = m.mode)
    (hsaved : k.savedWait = m.savedWait) : k.CountsDown left := by
  unfold CountsDown
  rw [hmode, hsaved]
  exact h

/-- Behind a key a countdown goes on. -/
theorem CountsDown.deliverKey {left : Nat} {m : Machine} (h : m.CountsDown left) (key : String) :
    (m.deliverKey key).CountsDown left := by
  have hkey : endsWait key m.mode = false := by
    rcases h with hmode | ⟨hmode, -⟩
    · rw [hmode]
      rfl
    · rw [hmode]
      rfl
  have hsame : (m.deliverKey key).mode = m.mode ∧ (m.deliverKey key).savedWait = m.savedWait := by
    unfold Machine.deliverKey
    dsimp only
    rw [hkey]
    exact ⟨rfl, rfl⟩
  exact h.of_same hsame.1 hsame.2

/-- What a tick does to a countdown: it is a tick of the countdown unless the run is paused. -/
theorem CountsDown.tick {left : Nat} {m : Machine} (h : m.CountsDown left) :
    (m.mode = .waiting (.ticks left) ∧ HostCall.tick.perform m = some (.ok (), m.countDown left) ∧ m.tickLines = []) ∨
      (m.mode = .paused ∧ HostCall.tick.perform m = some (.ok (), m) ∧ m.tickLines = []) := by
  rcases h with hmode | ⟨hmode, -⟩
  · refine Or.inl ⟨hmode, ?_, ?_⟩
    · rw [HostCall.perform, tick_apply, hmode]
    · rw [tickLines, hmode]
  · refine Or.inr ⟨hmode, ?_, ?_⟩
    · rw [HostCall.perform, tick_apply, hmode]
    · rw [tickLines, hmode]

/-- **What one call does to a countdown** that has ticks left behind it: an open tick takes one away, and nothing else
does.  No line is executed, and the script stands still. -/
theorem CountsDown.perform {left : Nat} {m : Machine} (h : m.CountsDown left) {c : HostCall} (hc : c.isAside = true)
    (hleft : (c.isOpenTick m).toNat < left) :
    ∃ k, c.perform m = some (.ok (), k) ∧ c.lines m = [] ∧ m.StandsStill k ∧
      k.CountsDown (left - (c.isOpenTick m).toNat) := by
  cases c with
  | load _ _ | start _ | startWith _ _ | run _ _ | stop | execute _ => cases hc
  | tick =>
    rcases h.tick with ⟨hmode, hperform, hlines⟩ | ⟨hmode, hperform, hlines⟩
    · have hopen : HostCall.tick.isOpenTick m = true := by rw [HostCall.isOpenTick, hmode]; rfl
      rw [hopen, Bool.toNat_true] at hleft ⊢
      refine ⟨_, hperform, hlines, rfl, Or.inl ?_⟩
      show (if left ≤ 1 then Mode.running else .waiting (.ticks (left - 1))) = _
      rw [if_neg (Nat.not_le.mpr hleft)]
    · have hclosed : HostCall.tick.isOpenTick m = false := by rw [HostCall.isOpenTick, hmode]; rfl
      rw [hclosed]
      exact ⟨m, hperform, hlines, .refl m, h⟩
  | pause =>
    refine ⟨_, rfl, rfl, ?_, Or.inr ?_⟩
    · unfold Machine.pause
      split <;> rfl
    · rcases h with hmode | ⟨hmode, hsaved⟩
      · rw [Machine.pause, hmode]
        exact ⟨rfl, rfl⟩
      · rw [Machine.pause, hmode]
        exact ⟨hmode, hsaved⟩
  | resume =>
    refine ⟨_, rfl, rfl, ?_, Or.inl ?_⟩
    · unfold Machine.resume
      split <;> rfl
    · rcases h with hmode | ⟨hmode, hsaved⟩
      · rw [Machine.resume, hmode]
        exact hmode
      · rw [Machine.resume, hmode, hsaved]
        rfl
  | deliverKey key => exact ⟨_, rfl, rfl, standsStill_deliverKey key m, h.deliverKey key⟩
  | provide name value => exact ⟨_, rfl, rfl, rfl, h.of_same rfl rfl⟩
  | print message => exact ⟨_, rfl, rfl, rfl, h.of_same rfl rfl⟩

/-- **What a row of calls does to a countdown**, by induction on the calls: as long as there are fewer open ticks than
ticks left, the countdown has gone down by the open ticks. -/
theorem CountsDown.performAll {left : Nat} {m : Machine} (h : m.CountsDown left) {calls : List HostCall}
    (hcalls : ∀ c ∈ calls, c.isAside = true) (hleft : HostCall.openTicks calls m < left) :
    ∃ k, HostCall.performAll calls m = some ([], k) ∧ m.StandsStill k ∧
      k.CountsDown (left - HostCall.openTicks calls m) := by
  induction calls generalizing m left with
  | nil => exact ⟨m, rfl, .refl m, h⟩
  | cons c rest ih =>
    have hc : c.isAside = true := hcalls c List.mem_cons_self
    obtain ⟨_, _, hcomes⟩ := HostCall.perform_of_isAside hc m
    have hfirst : (c.isOpenTick m).toNat < left := by
      rw [HostCall.openTicks_cons hcomes] at hleft
      exact Nat.lt_of_le_of_lt (Nat.le_add_right _ _) hleft
    obtain ⟨k, hperform, hlines, hstill, hcounts⟩ := h.perform hc hfirst
    -- The other calls go on with what the first one has left of the countdown.
    rw [HostCall.openTicks_cons hperform] at hleft ⊢
    obtain ⟨l, hrest, hstill', hcounts'⟩ :=
      ih hcounts (fun c' hc' => hcalls c' (List.mem_cons_of_mem _ hc')) (by omega)
    refine ⟨l, ?_, hstill.trans hstill', ?_⟩
    · rw [HostCall.performAll_of_cons hperform hrest, hlines]
      rfl
    · rwa [Nat.sub_sub] at hcounts'

/-- **The last open tick lets the run go on**, without a line. -/
theorem CountsDown.last_tick {m : Machine} (h : m.CountsDown 1) (hopen : m.mode ≠ .paused) :
    HostCall.tick.perform m = some (.ok (), { m with mode := .running }) ∧ m.tickLines = [] := by
  rcases h.tick with ⟨-, hperform, hlines⟩ | ⟨hmode, -, -⟩
  · exact ⟨hperform, hlines⟩
  · exact absurd hmode hopen

/-! ## Lines that begin a countdown -/

/-- `pause` takes a number, or nothing. -/
theorem validate_pause {t : Token} (h : t.value.tag = .number) :
    validate "pause" Builtin.pause.descriptors [t] = .ok () := by
  have haccepts : (Spec.ofText "number").accepts t = true := by
    have hspec : Spec.ofText "number" = .tags ["number"] := by decide
    rw [hspec, Spec.accepts, h]
    rfl
  show ((Descriptor.ofText "ticks" "number").makeOptional.check "pause" t >>= _) = _
  rw [show (Descriptor.ofText "ticks" "number").makeOptional.check "pause" t = .ok () from if_pos haccepts]
  rfl

/-- A pause for some ticks waits for as many. -/
theorem runPause_of_ticks {i : Invocation} {m : Machine} {v : Value} {n : Int} (hvalue : i.value? 0 = some v)
    (hn : v.integer? = some n) (hpos : 1 ≤ n) :
    runPause i m = (.ok .following, { m with mode := .waiting (.ticks n.toNat) }) := by
  have hmode : pauseMode m.mode (i.value? 0) = .ok (.waiting (.ticks n.toNat)) := by
    rw [hvalue]
    simp only [pauseMode, hn]
    rw [if_neg (by omega), if_neg (by omega)]
  rw [runPause, get_bind_apply, hmode]
  rfl

/-- **A line that pauses for some ticks begins a countdown of as many**, and the cursor is behind the line. -/
theorem advance_pause {m : Machine} {line : String} {t : Token} {n : Int} (hobeys : m.Obeys "pause")
    (hmode : m.mode = .running) (hline : m.script.lines[m.cursor]? = some line) (hcounts : m.counts line = true)
    (htokens : tokenize m.registry.types (some (resolver m.symbols m.objects)) line =
      .ok [wordToken m.registry.types "pause", t])
    (hn : t.value.integer? = some n) (hpos : 1 ≤ n) :
    ∃ k, m.advance = some ⟨[m.cursor], [], k⟩ ∧ k.mode = .waiting (.ticks n.toNat) ∧ k.cursor = m.cursor + 1 := by
  have hrun : runBuiltin .pause ⟨"pause", [], [t], m.onLine.cursor⟩ 0 (m.onLine.openContext 0) =
      (.ok .following, { m.onLine.openContext 0 with mode := .waiting (.ticks n.toNat) }) :=
    runPause_of_ticks rfl hn hpos
  obtain ⟨cs, hleft⟩ :=
    closeLine_leaveContext "pause" 0 { m.onLine.openContext 0 with mode := .waiting (.ticks n.toNat) }
  have hends : runLine (invoke m.nesting) line m.onLine = (.ok none, _) :=
    runLine_builtin_of_ok (hobeys.withExecuting (some m.cursor)) htokens rfl _ rfl
      (validate_pause (Value.tag_of_integer? hn)) hrun
  rw [hleft] at hends
  exact ⟨_, advance_of_runLine hmode hline hcounts hends, rfl, rfl⟩

/-! ## Countdowns -/

/-- **A countdown lasts exactly as long as asked.**

* A line that pauses for `n` ticks lets the run wait for `n` ticks, and `n` is below `2 ^ 63`.
* Let a run wait for some ticks, and let the host tick, pause, resume, deliver keys, provide globals and write
  messages, in any order.  As long as fewer ticks than that have come while the run was not paused, no line has been
  executed, the script stands still with its cursor, and the run waits for the ticks that are left or is paused with
  that wait saved.  The tick that is the last one of the countdown lets the run go on, and still executes no line. -/
theorem countdown_lasts :
    (∀ {m : Machine} {line : String} {t : Token} {n : Int}, m.Obeys "pause" → m.mode = .running →
      m.script.lines[m.cursor]? = some line → m.counts line = true →
      tokenize m.registry.types (some (resolver m.symbols m.objects)) line =
        .ok [wordToken m.registry.types "pause", t] →
      t.value.integer? = some n → 1 ≤ n →
      n < 2 ^ 63 ∧ ∃ k, m.advance = some ⟨[m.cursor], [], k⟩ ∧ k.mode = .waiting (.ticks n.toNat) ∧
        k.cursor = m.cursor + 1) ∧
    ∀ {m : Machine} {asked : Nat}, m.mode = .waiting (.ticks asked) → ∀ calls : List HostCall,
      (∀ c ∈ calls, c.isAside = true) → HostCall.openTicks calls m < asked →
      ∃ k, HostCall.performAll calls m = some ([], k) ∧ k.cursor = m.cursor ∧ m.StandsStill k ∧
        k.CountsDown (asked - HostCall.openTicks calls m) ∧
        (HostCall.openTicks calls m + 1 = asked → k.mode ≠ .paused →
          HostCall.tick.perform k = some (.ok (), { k with mode := .running }) ∧ k.tickLines = []) := by
  constructor
  · intro m line t n hobeys hmode hline hcounts htokens hn hpos
    exact ⟨(Value.integer?_range hn).2, advance_pause hobeys hmode hline hcounts htokens hn hpos⟩
  · intro m asked hmode calls hcalls hfewer
    have hbegins : m.CountsDown asked := Or.inl hmode
    obtain ⟨k, hperform, hstill, hcounts⟩ := hbegins.performAll hcalls hfewer
    refine ⟨k, hperform, hstill.cursor, hstill, hcounts, fun hlast hopen => ?_⟩
    have hone : asked - HostCall.openTicks calls m = 1 := by omega
    rw [hone] at hcounts
    exact hcounts.last_tick hopen

/-- Two ticks of a countdown, with a pause between them, a tick in the pause, and a key behind it. -/
def interruptedTicks : List HostCall := [.tick, .pause, .tick, .resume, .deliverKey "k", .tick]

/-- A countdown of three ticks is not shortened by a pause. -/
theorem countdown_lasts_through_pause :
    let m := started "pause 3\nlog hi"
    ∃ k l, m.advance = some ⟨[m.cursor], [], k⟩ ∧ k.mode = .waiting (.ticks 3) ∧
      HostCall.performAll interruptedTicks k = some ([], l) ∧ l.cursor = k.cursor ∧ l.CountsDown 1 ∧
      HostCall.tick.perform l = some (.ok (), { l with mode := .running }) ∧ l.tickLines = [] := by
  intro m
  have hchecks : "pause" ∉ m.script.notes.ignored ∧ m.mode = .running ∧ m.script.lines[m.cursor]? = some "pause 3" ∧
      m.counts "pause 3" = true ∧ (wordToken [] "3").value.integer? = some 3 ∧
      m.advance.any (fun t => HostCall.openTicks interruptedTicks t.last == 2 &&
        (HostCall.performAll interruptedTicks t.last).any (·.2.mode != .paused)) = true := by
    decide +kernel
  obtain ⟨hheeded, hmode, hline, hcounts, hthree, hcalls⟩ := hchecks
  have htokens : tokenize m.registry.types (some (resolver m.symbols m.objects)) "pause 3" =
      .ok [wordToken m.registry.types "pause", wordToken [] "3"] := rfl
  obtain ⟨hbegins, hlasts⟩ := countdown_lasts
  obtain ⟨-, k, hadvance, hwaits, -⟩ := hbegins ((started_reachable _).obeys (b := .pause) rfl hheeded) hmode hline
    hcounts htokens hthree (by decide)
  rw [hadvance, Option.any_some, Bool.and_eq_true, beq_iff_eq] at hcalls
  obtain ⟨hticks, hopen⟩ := hcalls
  obtain ⟨l, hperform, hcursor, -, hleft, hlast⟩ :=
    hlasts hwaits interruptedTicks (by decide) (by rw [hticks]; decide)
  rw [hticks] at hleft hlast
  rw [hperform, Option.any_some, bne_iff_ne] at hopen
  exact ⟨k, l, hadvance, hwaits, hperform, hcursor, hleft, hlast rfl hopen⟩

end Machine

end LineScript
