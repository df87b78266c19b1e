/-
# Jumps

A jump names a line of the script by its number, counted from one, or by its distance from the line under the cursor.
The number is a double, which is moved into the range of 64 signed bits first; a script has fewer lines than that range,
so a number that has been moved names no line before and behind.

* `Value.Names`: the line that an operand names, over the integers;
* `jumpTarget_exact`: the answer of a jump is the line that the operand names, or a fault that says what is wrong;
* `targetWithin?_eq`: 66 signed bits are enough for each step on the way;
* `jumps_are_exact`: the main statement.
-/
import LineScript.Proofs.Decimal.Whole
import LineScript.Proofs.Machine.Budget
import LineScript.Proofs.Machine.Keywords

namespace LineScript

open Act Decimal

/-! ## Lines that are named -/

/-- The line, counted from zero, that an operand names from the cursor on: any integer, also one outside the script. -/
inductive Value.Names (cursor : ℕ) : Value → ℤ → Prop
  | offset (o : ℤ) : Names cursor (.relpos o) (cursor + o)
  | number {x : Float} {line : ℤ} : rational? x = some (line : ℚ) → Names cursor (.number x) (line - 1)

theorem Value.Names.unique {cursor : ℕ} {v : Value} {z z' : ℤ} (h : v.Names cursor z) (h' : v.Names cursor z') :
    z = z' := by
  cases h with
  | offset o =>
    cases h'
    rfl
  | number hline =>
    cases h' with
    | number hline' =>
      rw [hline, Option.some_inj, Int.cast_inj] at hline'
      rw [hline']

/-- Only numbers and offsets name lines. -/
theorem Value.Names.tag {cursor : ℕ} {v : Value} {z : ℤ} (h : v.Names cursor z) :
    v.tag = .number ∨ v.tag = .relpos := by
  cases h with
  | offset o => exact Or.inr rfl
  | number _ => exact Or.inl rfl

namespace Machine

/-- An answer is exact for a jump in a script of so many lines: it is the line that the operand names when the script
has that line, a fault of reference when it has not, and a fault of typing when the operand names none. -/
structure ExactJump (cursor lines : ℕ) (v : Value) (answer : Except Fault ℕ) : Prop where
  leads : ∀ n : ℕ, answer = .ok n ↔ v.Names cursor n ∧ n < lines
  outside : ∀ z, v.Names cursor z → z < 0 ∨ (lines : ℤ) ≤ z → ∃ f, answer = .error f ∧ f.kind = .reference
  nameless : (∀ z, ¬ v.Names cursor z) → ∃ f, answer = .error f ∧ f.kind = .typing

section Targets

variable {cursor lines : ℕ} {v : Value} {r : ℤ}

theorem jumpTarget_of_requested {operand : Option Value} (h : requestedLine cursor operand = .ok r) :
    jumpTarget cursor lines operand =
      if 1 ≤ r ∧ r ≤ lines then .ok (r - 1).toNat else .error (.jumpOutside r lines) := by
  rw [jumpTarget, h]
  rfl

theorem jumpTarget_of_error {operand : Option Value} {f : Fault} (h : requestedLine cursor operand = .error f) :
    jumpTarget cursor lines operand = .error f := by
  rw [jumpTarget, h]
  rfl

/-- A fault of typing is exact when nothing is named. -/
theorem exactJump_of_nameless (h : ∀ z, ¬ v.Names cursor z) {f : Fault} (hf : f.kind = .typing) :
    ExactJump cursor lines v (.error f) where
  leads n := ⟨nofun, fun hn => absurd hn.1 (h n)⟩
  outside z hz := absurd hz (h z)
  nameless _ := ⟨f, rfl, hf⟩

/-- The requested line need be right only as far as the script goes. -/
theorem exactJump_of_requested {z : ℤ} (hz : v.Names cursor z) (hr : requestedLine cursor (some v) = .ok r)
    (hsame : 0 ≤ z ∧ z < lines ∨ 1 ≤ r ∧ r ≤ lines → r = z + 1) :
    ExactJump cursor lines v (jumpTarget cursor lines (some v)) := by
  rw [jumpTarget_of_requested hr]
  refine ⟨fun n => ?_, fun z' hz' hoff => ?_, fun hnone => absurd hz (hnone z)⟩
  · constructor
    · intro hn
      split_ifs at hn with hinside
      cases hn
      have hline : r = z + 1 := hsame (Or.inr hinside)
      have hvalue : ((r - 1).toNat : ℤ) = z := by omega
      rw [hvalue]
      exact ⟨hz, by omega⟩
    · rintro ⟨hn, hlt⟩
      obtain rfl := hz.unique hn
      have hline : r = n + 1 := hsame (Or.inl (by omega))
      rw [if_pos (by omega), hline]
      simp
  · obtain rfl := hz.unique hz'
    refine ⟨_, if_neg fun hinside => ?_, rfl⟩
    have hline : r = z + 1 := hsame (Or.inr hinside)
    omega

/-- **A jump answers exactly.**  Only a number that no script has as a line is changed on the way to 64 signed bits. -/
theorem jumpTarget_exact (hlines : lines < 2 ^ 63 - 1) (v : Value) :
    ExactJump cursor lines v (jumpTarget cursor lines (some v)) := by
  cases v with
  | relpos o =>
    refine exactJump_of_requested (.offset o) (r := cursor + 1 + o) rfl fun _ => ?_
    omega
  | number x =>
    cases hx : toInt? x with
    | some line =>
      have hr : requestedLine cursor (some (.number x)) = .ok (clamp64 line) := by
        simp [requestedLine, Value.integer?, Value.number?, hx]
      refine exactJump_of_requested (.number (toInt?_eq_some.mp hx)) hr fun hinside => ?_
      -- A number that is moved becomes an end of the range, and no script has a line there.
      unfold clamp64 at hinside ⊢
      omega
    | none =>
      have hr : requestedLine cursor (some (.number x)) = .error .jumpFraction := by
        simp [requestedLine, Value.integer?, Value.number?, hx]
      rw [jumpTarget_of_error hr]
      refine exactJump_of_nameless (fun z hz => ?_) rfl
      cases hz with
      | number hline =>
        rw [← toInt?_eq_some, hx] at hline
        cases hline
  | text _ _ | word _ _ | boolean _ | group _ | object _ =>
    rw [jumpTarget_of_error (f := .jumpOperand) rfl]
    exact exactJump_of_nameless (fun z hz => by cases hz) rfl

end Targets

/-! ## Signed bits -/

/-- An integer of so many signed bits; none when it does not fit. -/
def fits? (bits : ℕ) (n : ℤ) : Option ℤ := if -2 ^ (bits - 1) ≤ n ∧ n < 2 ^ (bits - 1) then some n else none

theorem fits?_eq_some {bits : ℕ} (hbits : 66 ≤ bits) {n : ℤ} (h : -2 ^ 65 ≤ n ∧ n < 2 ^ 65) :
    fits? bits n = some n := by
  have hpow : (2 : ℤ) ^ 65 ≤ 2 ^ (bits - 1) := pow_le_pow_right₀ (by decide) (by omega)
  exact if_pos ⟨by omega, by omega⟩

/-- The line that a jump asks for, with so many signed bits for each step; none when a step overflows. -/
def requestWithin? (bits cursor : ℕ) : Value → Option (Except Fault ℤ)
  | .relpos offset => do
    let line ← fits? bits cursor
    let number ← fits? bits (line + 1)
    let distance ← fits? bits offset
    let requested ← fits? bits (number + distance)
    return .ok requested
  | .number x =>
    match (Value.number x).integer? with
    | some line => (fits? bits line).map .ok
    | none => some (.error .jumpFraction)
  | _ => some (.error .jumpOperand)

/-- The line that a jump leads to, with so many signed bits for each step and 64 unsigned ones for the line; none when a
step overflows. -/
def targetWithin? (bits cursor lines : ℕ) (v : Value) : Option (Except Fault ℕ) := do
  match ← requestWithin? bits cursor v with
  | .error f => return .error f
  | .ok requested =>
    let target ← fits? bits (requested - 1)
    return if 0 ≤ target ∧ target < 2 ^ 64 ∧ target.toNat < lines then .ok target.toNat
      else .error (.jumpOutside requested lines)

section Within

variable {bits cursor lines : ℕ} {v : Value}

/-- What is requested is not far outside of 64 bits. -/
theorem requestedLine_range (hcursor : cursor < 2 ^ 64) (hoffset : ∀ o, v = .relpos o → -2 ^ 63 ≤ o ∧ o < 2 ^ 63)
    {requested : ℤ} (h : requestedLine cursor (some v) = .ok requested) : -2 ^ 63 ≤ requested ∧ requested < 2 ^ 65 := by
  cases v with
  | relpos o =>
    obtain ⟨hlow, hhigh⟩ := hoffset o rfl
    cases h
    omega
  | number x =>
    unfold requestedLine at h
    dsimp only at h
    split at h
    · rename_i hline
      cases h
      have hrange := Value.integer?_range hline
      omega
    · cases h
  | text _ _ | word _ _ | boolean _ | group _ | object _ => cases h

/-- A request fits when what it is computed from does. -/
theorem requestWithin?_eq (hbits : 66 ≤ bits) (hcursor : cursor < 2 ^ 64)
    (hoffset : ∀ o, v = .relpos o → -2 ^ 63 ≤ o ∧ o < 2 ^ 63) :
    requestWithin? bits cursor v = some (requestedLine cursor (some v)) := by
  cases v with
  | relpos o =>
    obtain ⟨hlow, hhigh⟩ := hoffset o rfl
    have hline : fits? bits cursor = some (cursor : ℤ) := fits?_eq_some hbits (by omega)
    have hnumber : fits? bits (cursor + 1) = some (cursor + 1 : ℤ) := fits?_eq_some hbits (by omega)
    have hdistance : fits? bits o = some o := fits?_eq_some hbits (by omega)
    have hrequested : fits? bits (cursor + 1 + o) = some (cursor + 1 + o) := fits?_eq_some hbits (by omega)
    simp [requestWithin?, requestedLine, hline, hnumber, hdistance, hrequested]
  | number x =>
    unfold requestWithin? requestedLine
    dsimp only
    cases hline : (Value.number x).integer? with
    | none => rfl
    | some line =>
      have hrange := Value.integer?_range hline
      have hfits : fits? bits line = some line := fits?_eq_some hbits (by omega)
      simp [hfits]
  | text _ _ | word _ _ | boolean _ | group _ | object _ => rfl

/-- **No step of a jump overflows** from 66 signed bits on. -/
theorem targetWithin?_eq (hbits : 66 ≤ bits) (hcursor : cursor < 2 ^ 64) (hlines : lines < 2 ^ 64)
    (hoffset : ∀ o, v = .relpos o → -2 ^ 63 ≤ o ∧ o < 2 ^ 63) :
    targetWithin? bits cursor lines v = some (jumpTarget cursor lines (some v)) := by
  rw [targetWithin?, requestWithin?_eq hbits hcursor hoffset]
  cases hr : requestedLine cursor (some v) with
  | error f =>
    rw [jumpTarget_of_error hr]
    rfl
  | ok requested =>
    have hrange := requestedLine_range hcursor hoffset hr
    have hfits : fits? bits (requested - 1) = some (requested - 1) := fits?_eq_some hbits (by omega)
    have hinside : (0 ≤ requested - 1 ∧ requested - 1 < 2 ^ 64 ∧ (requested - 1).toNat < lines) ↔
        (1 ≤ requested ∧ requested ≤ lines) := by
      omega
    rw [jumpTarget_of_requested hr]
    simp only [bind, Option.bind, hfits, hinside]
    rfl

end Within

/-! ## Lines that jump -/

variable {m : Machine} {line : String} {t : Token}

/-- A jump changes nothing by itself: its answer is the line to go on with, or a fault. -/
theorem runJump_apply {i : Invocation} {v : Value} (hv : i.value? 0 = some v) (depth : Nat) (m : Machine) :
    runBuiltin .jump i depth m = ((jumpTarget m.cursor m.script.lines.size (some v)).map Next.line, m) := by
  show runJump i m = _
  rw [runJump, get_bind_apply, hv]
  cases jumpTarget m.cursor m.script.lines.size (some v) with
  | error f => rfl
  | ok n => rfl

/-- `jump` takes a number or an offset, and else fails by type. -/
theorem validate_jump (t : Token) :
    validate "jump" Builtin.jump.descriptors [t] = .ok () ∨
      (t.value.tag ≠ .number ∧ t.value.tag ≠ .relpos) ∧
        ∃ f, validate "jump" Builtin.jump.descriptors [t] = .error f ∧ f.kind = .typing := by
  let target := Descriptor.ofText "target" "number|relpos"
  have hspec : target.spec = .tags ["number", "relpos"] := by decide
  have hcheck : validate "jump" Builtin.jump.descriptors [t] = target.check "jump" t := by
    show (target.check "jump" t >>= fun _ => .ok ()) = _
    cases target.check "jump" t <;> rfl
  rw [hcheck, Descriptor.check]
  by_cases haccepts : target.spec.accepts t = true
  · exact Or.inl (if_pos haccepts)
  · refine Or.inr ⟨?_, _, if_neg haccepts, rfl⟩
    rw [hspec, Spec.accepts] at haccepts
    constructor
    · intro htag
      exact haccepts (by rw [htag]; rfl)
    · intro htag
      exact haccepts (by rw [htag]; rfl)

/-- **A line that jumps** answers exactly, and leaves nothing but contexts changed. -/
theorem runLine_jump (hlines : m.script.lines.size < 2 ^ 63 - 1) (hobeys : m.Obeys "jump")
    (htokens : tokenize m.registry.types (some (resolver m.symbols m.objects)) line =
      .ok [wordToken m.registry.types "jump", t]) (inv : Invoke) :
    ∃ answer cs, ExactJump m.cursor m.script.lines.size t.value answer ∧
      runLine inv line m = (answer.map some, m.withContexts cs) := by
  obtain ⟨opened, hopen, -⟩ := m.openContext_eq_withContexts 0
  rcases validate_jump t with hvalid | ⟨⟨hnumber, hoffset⟩, f, hinvalid, hf⟩
  · have hexact : ExactJump m.cursor m.script.lines.size t.value _ := jumpTarget_exact hlines t.value
    have hrun : runBuiltin .jump ⟨"jump", [], [t], m.cursor⟩ 0 (m.openContext 0) =
        ((jumpTarget m.cursor m.script.lines.size (some t.value)).map Next.line, m.withContexts opened) := by
      rw [hopen]
      exact runJump_apply rfl 0 (m.withContexts opened)
    cases hanswer : jumpTarget m.cursor m.script.lines.size (some t.value) with
    | error f =>
      rw [hanswer] at hexact hrun
      refine ⟨_, opened.take 1, hexact, ?_⟩
      rw [runLine_builtin_of_error hobeys htokens rfl inv hvalid hrun]
      rfl
    | ok n =>
      rw [hanswer] at hexact hrun
      obtain ⟨cs, hleft⟩ := closeLine_leaveContext "jump" 0 (m.withContexts opened)
      refine ⟨_, cs, hexact, ?_⟩
      rw [runLine_builtin_of_ok hobeys htokens rfl inv rfl hvalid hrun, hleft]
      rfl
  · -- What is neither a number nor an offset names no line.
    have hnameless : ∀ z, ¬ t.value.Names m.cursor z := fun z hz => hz.tag.elim hnumber hoffset
    refine ⟨.error f, opened.take 1, exactJump_of_nameless hnameless hf, ?_⟩
    rw [runLine_builtin_of_invalid hobeys htokens rfl inv hinvalid, hopen]
    rfl

/-- **Jumps are exact**, in a script whose number of lines is below the largest integer of 64 signed bits; a list of
lines that fits into memory is shorter.

* The keyword answers with the line that its operand names when the script has it, with a fault of reference when it has
  not, and with a fault of typing when the operand names none.  It changes nothing by itself.
* A line that consists of the keyword and an operand sets the target when the keyword succeeds, and leaves it unset when
  the keyword fails.
* The cursor and the operand being of 64 bits, the same comes out when each step is computed with 128 signed bits. -/
theorem jumps_are_exact {m : Machine} (hlines : m.script.lines.size < 2 ^ 63 - 1) :
    (∀ {i : Invocation} {v : Value}, i.value? 0 = some v → ∀ depth : Nat, ∃ answer,
      ExactJump m.cursor m.script.lines.size v answer ∧
        runBuiltin .jump i depth m = (answer.map Next.line, m)) ∧
    (∀ {line : String} {t : Token}, m.Obeys "jump" →
      tokenize m.registry.types (some (resolver m.symbols m.objects)) line =
        .ok [wordToken m.registry.types "jump", t] →
      ∃ answer cs, ExactJump m.cursor m.script.lines.size t.value answer ∧
        Engine.runLine line ⟨m, none⟩ = (answer.map fun _ => (), ⟨m.withContexts cs, answer.toOption⟩)) ∧
    ∀ v : Value, m.cursor < 2 ^ 64 → (∀ o, v = .relpos o → -2 ^ 63 ≤ o ∧ o < 2 ^ 63) →
      targetWithin? 128 m.cursor m.script.lines.size v = some (jumpTarget m.cursor m.script.lines.size (some v)) := by
  refine ⟨fun {i v} hv depth => ?_, fun {line t} hobeys htokens => ?_, fun v hcursor hoffset => ?_⟩
  · exact ⟨_, jumpTarget_exact hlines v, runJump_apply hv depth m⟩
  · obtain ⟨answer, cs, hexact, hrun⟩ := runLine_jump hlines hobeys htokens (invoke m.nesting)
    refine ⟨answer, cs, hexact, ?_⟩
    unfold Engine.runLine
    rw [hrun]
    cases answer with
    | error f => rfl
    | ok n => rfl
  · exact targetWithin?_eq (by decide) hcursor (by omega) hoffset

/-- A jump to the second line of two, and one to a line number that does not fit 64 signed bits. -/
theorem jumps_are_exact_past_64_bits :
    let m := started "jump 2\nlog a"
    m.script.lines.size < 2 ^ 63 - 1 ∧ (Engine.runLine "jump 2" ⟨m, none⟩).2.target = some 1 ∧
      (Engine.runLine "jump 9223372036854775808" ⟨m, none⟩).2.target = none ∧
      ∃ f, (Engine.runLine "jump 9223372036854775808" ⟨m, none⟩).1 = .error f ∧ f.kind = .reference := by
  intro m
  have hchecks : m.script.lines.size = 2 ∧ "jump" ∉ m.script.notes.ignored ∧ toInt? (literalNumber "2") = some 2 ∧
      toInt? (literalNumber "9223372036854775808") = some 9223372036854775808 := by
    decide +kernel
  obtain ⟨hsize, hheeded, htwo, hhuge⟩ := hchecks
  have hlines : m.script.lines.size < 2 ^ 63 - 1 := by
    rw [hsize]
    decide
  have hobeys : m.Obeys "jump" := (started_reachable _).obeys (b := .jump) rfl hheeded
  obtain ⟨-, hjumps, -⟩ := jumps_are_exact hlines
  obtain ⟨answer, cs, hexact, hrun⟩ := @hjumps "jump 2" (wordToken [] "2") hobeys rfl
  obtain ⟨answer', cs', hexact', hrun'⟩ :=
    @hjumps "jump 9223372036854775808" (wordToken [] "9223372036854775808") hobeys rfl
  have hsecond : answer = .ok 1 := by
    refine (hexact.leads 1).mpr ⟨?_, by rw [hsize]; decide⟩
    exact Value.Names.number (toInt?_eq_some.mp htwo)
  obtain ⟨f, hfails, hkind⟩ :=
    hexact'.outside _ (Value.Names.number (toInt?_eq_some.mp hhuge)) (Or.inr (by rw [hsize]; decide))
  rw [hrun, hrun', hsecond, hfails]
  exact ⟨hlines, rfl, rfl, f, rfl, hkind⟩

end Machine

end LineScript
