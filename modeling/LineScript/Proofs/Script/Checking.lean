/-
# Checking a script ahead of a run

Cutting a line into tokens goes from left to right: the leftmost lexeme gets its value first (`Scan.tokens_push`), so
that a reference without value is a fault before a later malformed part is one.

Checking cuts the same lines with their references unread.  Such a pass fails only where the line is malformed
(`tokenizeInert_eq`), and a pass of a run goes side by side with it up to the first reference without value
(`tokenize_agrees`).  So the lines that checking reports are those that no run can cut, and on every other line a run
can only meet a fault of a reference (`check_predicts_run`).
-/
import LineScript.Script
import LineScript.Member
import Mathlib.Tactic.SplitIfs

namespace LineScript

open LineScript.Text

/-! ## The pass over a line -/

/-- A token before those of the rest of the line. -/
def readThen (types : List WordType) (resolver : Option Resolver) (l : Lexeme)
    (rest : Except Fault (List Token)) : Except Fault (List Token) := do
  let token ← l.token types resolver
  let tokens ← rest
  return token :: tokens

section Pass

variable (types : List WordType) (resolver : Option Resolver)

/-- The first lexeme of a scan gets its value first. -/
theorem Scan.tokens_push (l : Lexeme) (s : Scan) :
    (s.push l).tokens types resolver = readThen types resolver l (s.tokens types resolver) := by
  unfold tokens readThen push
  rw [List.mapM_cons]
  cases htoken : l.token types resolver with
  | error f => rfl
  | ok token =>
    cases hrest : s.lexemes.mapM (·.token types resolver) with
    | error f => rfl
    | ok tokens => cases s.fault <;> rfl

end Pass

/-! ## What ends a scan -/

theorem fault_pushBare (word : List Char) (s : Scan) : (s.pushBare word).fault = s.fault := by
  unfold Scan.pushBare
  split <;> rfl

/-- What ends the scan of a line is a syntax error. -/
theorem kind_of_scanFrom {region : Region} {seen rest : List Char} {f : Fault}
    (h : (scanFrom region seen rest).fault = some f) : f.kind = .form := by
  induction rest generalizing region seen with
  | nil =>
    cases region with
    | plain =>
      rw [scanFrom, fault_pushBare] at h
      cases h
    | quoted | group | reference reach =>
      rw [scanFrom] at h
      cases h
      rfl
  | cons c rest ih =>
    cases region with
    | plain =>
      rw [scanFrom] at h
      split_ifs at h
      · rw [fault_pushBare] at h
        exact ih h
      · rw [fault_pushBare] at h
        exact ih h
      · rw [fault_pushBare] at h
        exact ih h
      · split at h
        · exact ih h
        · cases h
          rfl
      · exact ih h
    | quoted =>
      rw [scanFrom] at h
      split_ifs at h <;> exact ih h
    | group =>
      rw [scanFrom] at h
      split_ifs at h <;> exact ih h
    | reference reach =>
      rw [scanFrom] at h
      split_ifs at h
      · exact ih h
      · cases h
        rfl
      · exact ih h

/-! ## Unread lines -/

/-- Does the lexeme need a resolver? -/
def Lexeme.isReference : Lexeme → Bool
  | .reference .. => true
  | _ => false

/-- The token of a lexeme whose value nobody looks up. -/
def Lexeme.unread (types : List WordType) : Lexeme → Token
  | .bare word => ⟨wordValue types (String.ofList word), String.ofList word⟩
  | .quoted text => ⟨.string (String.ofList text), String.ofList text⟩
  | .group inner => ⟨.group ((groupItems inner).map (wordValue types)), between "[" inner "]"⟩
  | .reference raw _ => ⟨.identifier (between "\\" raw "\\"), between "\\" raw "\\"⟩

theorem Lexeme.token_none (types : List WordType) (l : Lexeme) : l.token types none = .ok (l.unread types) := by
  cases l <;> rfl

theorem mapM_token_none (types : List WordType) (lexemes : List Lexeme) :
    lexemes.mapM (·.token types none) = .ok (lexemes.map (·.unread types)) := by
  induction lexemes with
  | nil => rfl
  | cons l rest ih =>
    rw [List.mapM_cons, l.token_none, ih]
    rfl

/-- **An unread line fails only where it is malformed**, and then as the scan says. -/
theorem tokenizeInert_eq (types : List WordType) (line : String) :
    tokenizeInert types line =
      match (scan line).fault with
      | some f => .error f
      | none => .ok ((scan line).lexemes.map (·.unread types)) := by
  unfold tokenizeInert tokenize Scan.tokens
  rw [mapM_token_none]
  cases (scan line).fault <;> rfl

/-! ## The same line read twice -/

/-- The tokens of some lexemes, unread and read in a run: the same tokens in the same order, but that a reference is
its source text on one side and its value with the display of it on the other. -/
inductive AgreeOffReferences (types : List WordType) (resolve : Resolver) :
    List Lexeme → List Token → List Token → Prop
  | nil : AgreeOffReferences types resolve [] [] []
  | same {l : Lexeme} {rest : List Lexeme} {unread read : List Token} :
    l.isReference = false → AgreeOffReferences types resolve rest unread read →
    AgreeOffReferences types resolve (l :: rest) (l.unread types :: unread) (l.unread types :: read)
  | reference {raw : List Char} {reach : Reach} {v : Value} {rest : List Lexeme} {unread read : List Token} :
    resolve (.ofRaw raw reach) = .ok v → AgreeOffReferences types resolve rest unread read →
    AgreeOffReferences types resolve (.reference raw reach :: rest)
      (⟨.identifier (between "\\" raw "\\"), between "\\" raw "\\"⟩ :: unread) (⟨v, v.display⟩ :: read)

/-- A reference of some lexemes fails with a fault of the resolver. -/
def FailsAtReference (resolve : Resolver) (lexemes : List Lexeme) (f : Fault) : Prop :=
  ∃ raw reach, .reference raw reach ∈ lexemes ∧ resolve (.ofRaw raw reach) = .error f

section Reading

variable {types : List WordType} {resolve : Resolver} {lexemes : List Lexeme}

theorem AgreeOffReferences.length_eq {unread read : List Token}
    (h : AgreeOffReferences types resolve lexemes unread read) :
    unread.length = lexemes.length ∧ read.length = lexemes.length := by
  induction h with
  | nil => exact ⟨rfl, rfl⟩
  | same _ _ ih => exact ⟨congrArg (· + 1) ih.1, congrArg (· + 1) ih.2⟩
  | reference _ _ ih => exact ⟨congrArg (· + 1) ih.1, congrArg (· + 1) ih.2⟩

/-- **Lexemes read in a run**: either all of them have tokens, which agree with the unread ones, or the leftmost
reference without value ends the pass. -/
theorem mapM_token_agrees (types : List WordType) (resolve : Resolver) (lexemes : List Lexeme) :
    (∃ read, lexemes.mapM (·.token types (some resolve)) = .ok read ∧
      AgreeOffReferences types resolve lexemes (lexemes.map (·.unread types)) read) ∨
    ∃ f, lexemes.mapM (·.token types (some resolve)) = .error f ∧ FailsAtReference resolve lexemes f := by
  induction lexemes with
  | nil => exact Or.inl ⟨[], rfl, .nil⟩
  | cons l rest ih =>
    rw [List.mapM_cons]
    -- The first lexeme: unread or read it is the same, or it is a reference with or without value.
    have hfirst : (l.isReference = false ∧ l.token types (some resolve) = .ok (l.unread types)) ∨
        ∃ raw reach, l = .reference raw reach := by
      cases l with
      | reference raw reach => exact Or.inr ⟨raw, reach, rfl⟩
      | bare word => exact Or.inl ⟨rfl, rfl⟩
      | quoted text => exact Or.inl ⟨rfl, rfl⟩
      | group inner => exact Or.inl ⟨rfl, rfl⟩
    have hmono {f : Fault} (h : FailsAtReference resolve rest f) : FailsAtReference resolve (l :: rest) f := by
      obtain ⟨raw, reach, hmem, hfails⟩ := h
      exact ⟨raw, reach, List.mem_cons_of_mem l hmem, hfails⟩
    obtain ⟨hplain, htoken⟩ | ⟨raw, reach, rfl⟩ := hfirst
    · rw [htoken]
      obtain ⟨read, hread, hagree⟩ | ⟨f, hfails, hcause⟩ := ih
      · rw [hread]
        exact Or.inl ⟨_, rfl, .same hplain hagree⟩
      · rw [hfails]
        exact Or.inr ⟨f, rfl, hmono hcause⟩
    · cases hvalue : resolve (.ofRaw raw reach) with
      | error f =>
        have htoken : Lexeme.token types (some resolve) (.reference raw reach) = .error f := by
          simp only [Lexeme.token, hvalue]
          rfl
        rw [htoken]
        exact Or.inr ⟨f, rfl, raw, reach, List.mem_cons_self, hvalue⟩
      | ok v =>
        have htoken : Lexeme.token types (some resolve) (.reference raw reach) = .ok ⟨v, v.display⟩ := by
          simp only [Lexeme.token, hvalue]
          rfl
        rw [htoken]
        obtain ⟨read, hread, hagree⟩ | ⟨f, hfails, hcause⟩ := ih
        · rw [hread]
          exact Or.inl ⟨_, rfl, .reference hvalue hagree⟩
        · rw [hfails]
          exact Or.inr ⟨f, rfl, hmono hcause⟩

/-- A malformed line fails in a run, too: at its malformed part or at a reference before it. -/
theorem tokenize_of_malformed {line : String} {f : Fault} (h : tokenizeInert types line = .error f) :
    ∃ f', tokenize types (some resolve) line = .error f' ∧
      (f' = f ∨ FailsAtReference resolve (scan line).lexemes f') := by
  rw [tokenizeInert_eq] at h
  have hfault : (scan line).fault = some f := by
    cases hscan : (scan line).fault with
    | none => simp [hscan] at h
    | some g => simpa [hscan] using h
  unfold tokenize Scan.tokens
  obtain ⟨read, hread, -⟩ | ⟨f', hfails, hcause⟩ := mapM_token_agrees types resolve (scan line).lexemes
  · rw [hread, hfault]
    exact ⟨f, rfl, Or.inl rfl⟩
  · rw [hfails]
    exact ⟨f', rfl, Or.inr hcause⟩

/-- **A well-formed line goes side by side with itself unread**, up to the first reference without value. -/
theorem tokenize_agrees {line : String} {unread : List Token} (h : tokenizeInert types line = .ok unread) :
    (∃ read, tokenize types (some resolve) line = .ok read ∧
      AgreeOffReferences types resolve (scan line).lexemes unread read) ∨
    ∃ f, tokenize types (some resolve) line = .error f ∧ FailsAtReference resolve (scan line).lexemes f := by
  rw [tokenizeInert_eq] at h
  have hscan : (scan line).fault = none ∧ unread = (scan line).lexemes.map (·.unread types) := by
    cases hfault : (scan line).fault with
    | some f => simp [hfault] at h
    | none => exact ⟨rfl, by simpa [hfault] using h.symm⟩
  obtain ⟨hfault, rfl⟩ := hscan
  unfold tokenize Scan.tokens
  obtain ⟨read, hread, hagree⟩ | ⟨f, hfails, hcause⟩ := mapM_token_agrees types resolve (scan line).lexemes
  · rw [hread, hfault]
    exact Or.inl ⟨read, rfl, hagree⟩
  · rw [hfails]
    exact Or.inr ⟨f, rfl, hcause⟩

end Reading

/-! ## Reported lines -/

theorem mem_checkLines {types : List WordType} {number n : Nat} {lines : List String} {f : Fault} :
    (n, f) ∈ checkLines types number lines ↔
      ∃ i line, n = number + i ∧ lines[i]? = some line ∧ isPassive line = false ∧
        tokenizeInert types line = .error f := by
  induction lines generalizing number with
  | nil => simp [checkLines]
  | cons first rest ih =>
    -- A report is about the first line or comes from the rest.
    have hrest : ((n, f) ∈ checkLines types number (first :: rest)) ↔
        (n = number ∧ isPassive first = false ∧ tokenizeInert types first = .error f) ∨
          (n, f) ∈ checkLines types (number + 1) rest := by
      rw [checkLines]
      cases hpassive : isPassive first with
      | true => simp
      | false => cases tokenizeInert types first <;> simp [eq_comm]
    rw [hrest, ih]
    constructor
    · rintro (⟨rfl, hactive, hfails⟩ | ⟨i, line, rfl, hline, hactive, hfails⟩)
      · exact ⟨0, first, rfl, rfl, hactive, hfails⟩
      · exact ⟨i + 1, line, by omega, hline, hactive, hfails⟩
    · rintro ⟨i, line, rfl, hline, hactive, hfails⟩
      cases i with
      | zero =>
        cases hline
        exact Or.inl ⟨rfl, hactive, hfails⟩
      | succ i => exact Or.inr ⟨i, line, by omega, hline, hactive, hfails⟩

/-- Does checking a text report the line with this number, counted from one? -/
def Script.Reports (types : List WordType) (text : String) (number : Nat) : Prop :=
  ∃ f, (number, f) ∈ Script.check types text

/-- The reports of a text that can be read: its statements that cannot be cut. -/
theorem Script.reports_iff {types : List WordType} {text : String} {script : Script}
    (htext : Script.ofText? text = .ok script) {i : Nat} {line : String} (hline : script.lines[i]? = some line) :
    Script.Reports types text (i + 1) ↔ isPassive line = false ∧ ∃ f, tokenizeInert types line = .error f := by
  have hlist : script.lines.toList[i]? = some line := by simpa using hline
  unfold Script.Reports Script.check
  simp only [htext, mem_checkLines]
  constructor
  · rintro ⟨f, j, line', hnumber, hline', hactive, hfails⟩
    obtain rfl : j = i := by omega
    obtain rfl : line' = line := by simpa [hlist] using hline'.symm
    exact ⟨hactive, f, hfails⟩
  · rintro ⟨hactive, f, hfails⟩
    exact ⟨f, i, line, by omega, hlist, hactive, hfails⟩

/-! ## Reports and runs -/

/-- The look-up of a name fails for want of the name or its value. -/
theorem Symbols.kind_of_lookup {s : Symbols} {name : String} {reach : Reach} {f : Fault}
    (h : s.lookup name reach = .error f) : f.kind = .reference := by
  have hreadable {t : Catalog Variable} {isGlobal : Bool} (h : readable t isGlobal name = .error f) :
      f.kind = .reference := by
    unfold readable at h
    split at h
    · cases h
      rfl
    · split at h
      · split at h <;> cases h
        rfl
      · cases h
        rfl
  cases reach with
  | locals => exact hreadable h
  | globals => exact hreadable h
  | parameters =>
    unfold lookup at h
    dsimp only at h
    split at h
    · cases h
      rfl
    · split at h <;> cases h
      rfl
  | nearest =>
    unfold lookup at h
    dsimp only at h
    split at h
    · cases h
    · exact hreadable h

/-- A resolver never answers that the line is malformed. -/
theorem resolver_kind {s : Symbols} {o : Objects} {r : Reference} {f : Fault} (h : resolver s o r = .error f) :
    f.kind ≠ .form := by
  unfold resolver at h
  split at h
  · simp [Symbols.kind_of_lookup h]
  · rename_i base accessor _
    cases hbase : s.lookup base r.reach with
    | error g =>
      rw [hbase] at h
      cases h
      simp [Symbols.kind_of_lookup hbase]
    | ok v =>
      rw [hbase] at h
      -- A member is an element of a group or a property of an object.
      cases v with
      | group items =>
        replace h : elementAt base accessor items = .error f := h
        unfold elementAt at h
        split at h
        · cases h
          simp [Fault.kind]
        · split at h <;> cases h
          simp [Fault.kind]
      | object id =>
        replace h : propertyOf o base accessor id = .error f := h
        unfold propertyOf at h
        split at h
        · cases h
          simp [Fault.kind]
        · unfold Objects.property at h
          split at h
          · cases h
            simp [Fault.kind]
          · split at h <;> cases h
            simp [Fault.kind]
      | number n => cases h; simp [Fault.kind]
      | text t w => cases h; simp [Fault.kind]
      | word t w => cases h; simp [Fault.kind]
      | boolean b => cases h; simp [Fault.kind]
      | relpos n => cases h; simp [Fault.kind]

/-- **Checking predicts the malformed lines of every run.**  A line that is reported cannot be cut with any names and
objects.  A line that is not reported is cut into the tokens that checking saw, references apart, or a reference has
no value. -/
theorem check_predicts_run {text : String} {script : Script} (htext : Script.ofText? text = .ok script) {i : Nat}
    {line : String} (hline : script.lines[i]? = some line) (hactive : isPassive line = false)
    (types : List WordType) (s : Symbols) (o : Objects) :
    (Script.Reports types text (i + 1) → ∃ f, tokenize types (some (resolver s o)) line = .error f) ∧
    (¬ Script.Reports types text (i + 1) → ∃ unread, tokenizeInert types line = .ok unread ∧
      ((∃ read, tokenize types (some (resolver s o)) line = .ok read ∧ read.length = unread.length ∧
          AgreeOffReferences types (resolver s o) (scan line).lexemes unread read) ∨
        ∃ f, tokenize types (some (resolver s o)) line = .error f ∧
          FailsAtReference (resolver s o) (scan line).lexemes f ∧ f.kind ≠ .form)) := by
  rw [Script.reports_iff htext hline]
  constructor
  · rintro ⟨-, f, hfails⟩
    obtain ⟨f', hfails', -⟩ := tokenize_of_malformed hfails
    exact ⟨f', hfails'⟩
  · intro hsilent
    cases hunread : tokenizeInert types line with
    | error f => exact absurd ⟨hactive, f, hunread⟩ hsilent
    | ok unread =>
      refine ⟨unread, rfl, ?_⟩
      obtain ⟨read, hread, hagree⟩ | ⟨f, hfails, hcause⟩ := tokenize_agrees hunread
      · exact Or.inl ⟨read, hread, by rw [hagree.length_eq.1, hagree.length_eq.2], hagree⟩
      · obtain ⟨raw, reach, hmem, hvalue⟩ := hcause
        exact Or.inr ⟨f, hfails, ⟨raw, reach, hmem, hvalue⟩, resolver_kind hvalue⟩

/-- Two lines that ask for a name which no variable has: the first is not reported and fails for want of the name,
the second is reported and fails in a run, too. -/
theorem check_predicts_run_of_unknown_name :
    let text := "log \\x\\\nlog \\x\\ [1|2"
    (∃ f, tokenize [] (some (resolver {} {})) "log \\x\\" = .error f ∧ f.kind ≠ .form) ∧
      ¬ Script.Reports [] text 1 ∧ Script.Reports [] text 2 ∧
      ∃ f, tokenize [] (some (resolver {} {})) "log \\x\\ [1|2" = .error f := by
  intro text
  have hchecks : (Script.ofText? text).toOption.map (·.lines.toList) = some ["log \\x\\", "log \\x\\ [1|2"] ∧
      isPassive "log \\x\\" = false ∧ (tokenizeInert [] "log \\x\\").isOk = true ∧
      isPassive "log \\x\\ [1|2" = false ∧ (tokenizeInert [] "log \\x\\ [1|2").isOk = false ∧
      (tokenize [] (some (resolver {} {})) "log \\x\\").isOk = false := by
    decide +kernel
  obtain ⟨htext, hfirst, hwell, hsecond, hmalformed, hunknown⟩ := hchecks
  obtain ⟨script, hscript, hlines⟩ := Option.map_eq_some_iff.mp htext
  have hread : Script.ofText? text = .ok script := by
    cases h : Script.ofText? text with
    | error f => simp [h, Except.toOption] at hscript
    | ok s => simpa [h, Except.toOption] using hscript
  have hline₁ : script.lines[0]? = some "log \\x\\" := by simp [← Array.getElem?_toList, hlines]
  have hline₂ : script.lines[1]? = some "log \\x\\ [1|2" := by simp [← Array.getElem?_toList, hlines]
  have hsilent : ¬ Script.Reports [] text 1 := by
    rintro hreported
    obtain ⟨-, f, hfails⟩ := (Script.reports_iff hread hline₁).mp hreported
    simp [hfails, Except.isOk, Except.toBool] at hwell
  have hreported : Script.Reports [] text 2 := by
    refine (Script.reports_iff hread hline₂).mpr ⟨hsecond, ?_⟩
    cases h : tokenizeInert [] "log \\x\\ [1|2" with
    | error f => exact ⟨f, rfl⟩
    | ok tokens => simp [h, Except.isOk, Except.toBool] at hmalformed
  obtain ⟨-, hpredicted⟩ := check_predicts_run hread hline₁ hfirst [] {} {}
  obtain ⟨unread, -, hrun⟩ := hpredicted hsilent
  refine ⟨?_, hsilent, hreported, (check_predicts_run hread hline₂ hsecond [] {} {}).1 hreported⟩
  obtain ⟨read, hread, -⟩ | ⟨f, hfails, -, hkind⟩ := hrun
  · simp [hread, Except.isOk, Except.toBool] at hunknown
  · exact ⟨f, hfails, hkind⟩

end LineScript
