/-
# Lines of words

Most statements begin with bare words that stand apart by spaces, and most names are read back as a reference between
two backslashes.  A word and the space behind it can be taken off a line (`tokenize_word_space`).  Any part by itself is
a line of one token (`tokenize_part`), be it a word (`tokenize_word`) or a reference (`tokenize_reference`).

A reference gives two characters a meaning of their own: a leading underscore asks for globals, and a dot for a member.
A name without them (`IsPlainName`) is looked up as it is written (`resolver_of_plain`).
-/
import LineScript.Proofs.Script.Rendering

namespace LineScript

open LineScript.Text

/-! ## Words -/

/-- Is the text a bare run of a line: not empty, and made of bare characters? -/
def IsBareWord (s : String) : Prop := (Part.bare s.toList).Regular

instance (c : Char) : Decidable (IsBareChar c) := inferInstanceAs (Decidable (_ ∧ _ ∧ _ ∧ _))

-- The characters of the text are tried, and not all that there are.
instance (s : String) : Decidable (IsBareWord s) :=
  @instDecidableAnd _ _ inferInstance (List.decidableBAll IsBareChar s.toList)

/-- The token of a bare word. -/
def wordToken (types : List WordType) (s : String) : Token := ⟨wordValue types s, s⟩

section Words

variable {types : List WordType} {resolver : Option Resolver} {word : String}

/-- **A line of a single part has the token of this part.** -/
theorem tokenize_part {line : String} {p : Part} {l : Lexeme} (hp : p.Regular) (hline : line.toList = p.chars)
    (hl : p.lexeme? = some l) : tokenize types resolver line = (l.token types resolver).map ([·]) := by
  have hscan : scan line = ⟨[l], none⟩ := scan_iff.mpr ⟨[p], hline ▸ WrittenAs.single hp, by simp [hl]⟩
  show (scan line).tokens types resolver = _
  rw [hscan, Scan.tokens, List.mapM_cons, List.mapM_nil]
  cases l.token types resolver <;> rfl

/-- A lexeme that is a word has its token before those of the rest. -/
theorem readThen_bare (word : List Char) (rest : Except Fault (List Token)) :
    readThen types resolver (.bare word) rest = rest.map (wordToken types (String.ofList word) :: ·) := by
  cases rest <;> rfl

/-- **A word and the space behind it are the first token of a line.** -/
theorem tokenize_word_space (hword : IsBareWord word) (rest : String) :
    tokenize types resolver (word ++ " " ++ rest) = (tokenize types resolver rest).map (wordToken types word :: ·) := by
  have hends : EndsWord (' ' :: rest.toList) := Or.inl rfl
  have hspace : scanFrom .plain [] (' ' :: rest.toList) = scan rest := by simp [scanFrom, isBlank, Scan.pushBare, scan]
  have hscan : scan (word ++ " " ++ rest) = (scan rest).push (.bare word.toList) := by
    have hchars : (word ++ " " ++ rest).toList = (Part.bare word.toList).chars ++ ' ' :: rest.toList := by
      simp [Part.chars]
    rw [scan, hchars, scanFrom_part hword fun _ _ => hends, hspace]
    rfl
  show (scan (word ++ " " ++ rest)).tokens types resolver = ((scan rest).tokens types resolver).map _
  rw [hscan, Scan.tokens_push, readThen_bare, String.ofList_toList]

/-- A word is a line of one token. -/
theorem tokenize_word (hword : IsBareWord word) : tokenize types resolver word = .ok [wordToken types word] := by
  rw [tokenize_part hword rfl rfl, Lexeme.token, String.ofList_toList]
  rfl

/-- Three words are a line of their tokens. -/
theorem tokenize_three_words {first second third : String} (hfirst : IsBareWord first) (hsecond : IsBareWord second)
    (hthird : IsBareWord third) :
    tokenize types resolver (first ++ " " ++ second ++ " " ++ third) =
      .ok [wordToken types first, wordToken types second, wordToken types third] := by
  have hline : first ++ " " ++ second ++ " " ++ third = first ++ " " ++ (second ++ " " ++ third) := by
    simp [String.append_assoc]
  rw [hline, tokenize_word_space hfirst, tokenize_word_space hsecond, tokenize_word hthird]
  rfl

/-- The tokens of a line that begins with two words. -/
theorem tokens_of_two_words {first second rest : String} {tokens : List Token} (hfirst : IsBareWord first)
    (hsecond : IsBareWord second)
    (h : tokenize types resolver (first ++ " " ++ (second ++ " " ++ rest)) = .ok tokens) :
    ∃ more, tokenize types resolver rest = .ok more ∧
      tokens = wordToken types first :: wordToken types second :: more := by
  rw [tokenize_word_space hfirst, tokenize_word_space hsecond] at h
  cases hrest : tokenize types resolver rest with
  | error f =>
    rw [hrest] at h
    cases h
  | ok more =>
    rw [hrest] at h
    cases h
    exact ⟨more, rfl, rfl⟩

end Words

/-! ## Lexemes and their tokens -/

/-- A line with tokens has lexemes, and no fault. -/
theorem exists_lexemes_of_tokenize {types : List WordType} {resolver : Option Resolver} {line : String}
    {tokens : List Token} (h : tokenize types resolver line = .ok tokens) :
    ∃ lexemes, scan line = ⟨lexemes, none⟩ ∧ lexemes.mapM (·.token types resolver) = .ok tokens := by
  change (scan line).tokens types resolver = .ok tokens at h
  rcases hscan : scan line with ⟨lexemes, fault⟩
  rw [hscan, Scan.tokens] at h
  cases htokens : lexemes.mapM (·.token types resolver) with
  | error f =>
    rw [htokens] at h
    cases h
  | ok found =>
    rw [htokens] at h
    cases fault with
    | some f => cases h
    | none =>
      cases h
      exact ⟨lexemes, rfl, htokens⟩

/-- Operations that succeed, the first of them and the rest. -/
theorem mapM_cons_eq_ok {α β : Type} {k : α → Except Fault β} {x : α} {xs : List α} {r : List β}
    (h : (x :: xs).mapM k = .ok r) : ∃ y ys, r = y :: ys ∧ k x = .ok y ∧ xs.mapM k = .ok ys := by
  rw [List.mapM_cons] at h
  cases hx : k x with
  | error f =>
    rw [hx] at h
    cases h
  | ok y =>
    rw [hx] at h
    cases hxs : xs.mapM k with
    | error f =>
      rw [hxs] at h
      cases h
    | ok ys =>
      rw [hxs] at h
      cases h
      exact ⟨y, ys, rfl, rfl, rfl⟩

/-- A line of two tokens has two lexemes. -/
theorem exists_two_lexemes {types : List WordType} {resolver : Option Resolver} {line : String} {first second : Token}
    (h : tokenize types resolver line = .ok [first, second]) :
    ∃ l₁ l₂, scan line = ⟨[l₁, l₂], none⟩ ∧ l₁.token types resolver = .ok first ∧
      l₂.token types resolver = .ok second := by
  obtain ⟨lexemes, hscan, htokens⟩ := exists_lexemes_of_tokenize h
  rcases lexemes with _ | ⟨l₁, more⟩
  · cases htokens
  obtain ⟨_, _, hsame, h₁, hmore⟩ := mapM_cons_eq_ok htokens
  cases hsame
  rcases more with _ | ⟨l₂, rest⟩
  · cases hmore
  obtain ⟨_, _, hsame, h₂, hrest⟩ := mapM_cons_eq_ok hmore
  cases hsame
  rcases rest with _ | ⟨l₃, rest⟩
  · exact ⟨l₁, l₂, hscan, h₁, h₂⟩
  · obtain ⟨_, _, hsame, -, -⟩ := mapM_cons_eq_ok hrest
    cases hsame

/-- Two lexemes with tokens are a line of two tokens. -/
theorem tokenize_of_two_lexemes {types : List WordType} {resolver : Option Resolver} {line : String} {l₁ l₂ : Lexeme}
    {first second : Token} (hscan : scan line = ⟨[l₁, l₂], none⟩) (h₁ : l₁.token types resolver = .ok first)
    (h₂ : l₂.token types resolver = .ok second) : tokenize types resolver line = .ok [first, second] := by
  show (scan line).tokens types resolver = _
  rw [hscan, Scan.tokens, List.mapM_cons, List.mapM_cons, List.mapM_nil, h₁, h₂]
  rfl

/-- An unread token whose text is a bare word is written bare or quoted, so that nothing of it is left to read. -/
theorem token_of_bare_text {types : List WordType} {l : Lexeme} {t : Token} (h : l.token types none = .ok t)
    (hword : IsBareWord t.text) : (∀ resolver, l.token types resolver = .ok t) ∧
      (l = .bare t.text.toList ∧ t = wordToken types t.text ∨ t = ⟨.string t.text, t.text⟩) := by
  cases l with
  | bare word =>
    cases h
    exact ⟨fun _ => rfl, Or.inl ⟨by rw [String.toList_ofList], rfl⟩⟩
  | quoted text =>
    cases h
    exact ⟨fun _ => rfl, Or.inr rfl⟩
  | group inner =>
    cases h
    have hbare := hword.2 '[' (by simp [toList_between])
    exact absurd hbare (by decide)
  | reference raw reach =>
    cases h
    have hbare := hword.2 '\\' (by simp [toList_between])
    exact absurd hbare (by decide)

/-- The bare lexemes of a line are bare words. -/
theorem isBareWord_of_mem_scan {line : String} {lexemes : List Lexeme} {word : List Char}
    (h : scan line = ⟨lexemes, none⟩) (hmem : .bare word ∈ lexemes) : IsBareWord (String.ofList word) := by
  obtain ⟨parts, hparts, rfl⟩ := scan_iff.mp h
  obtain ⟨part, hpart, hlexeme⟩ := List.mem_filterMap.mp hmem
  have hregular := hparts.regular part hpart
  cases part with
  | bare written =>
    cases hlexeme
    rw [IsBareWord, String.toList_ofList]
    exact hregular
  | blank | quoted | group | reference => cases hlexeme

/-! ## The first word -/

/-- The bare word that a line begins with, if it begins with one. -/
def firstWord? (line : String) : Option String :=
  match (scan line).lexemes with
  | .bare written :: _ => some (String.ofList written)
  | _ => none

theorem firstWord?_eq_some {line word : String} (h : firstWord? line = some word) :
    ∃ more, (scan line).lexemes = .bare word.toList :: more := by
  unfold firstWord? at h
  split at h
  · rename_i written more hscan
    cases h
    exact ⟨more, by rw [hscan, String.toList_ofList]⟩
  · cases h

/-- A line that begins with a word has the token of the word first. -/
theorem tokens_of_firstWord {types : List WordType} {resolver : Option Resolver} {line word : String}
    {tokens : List Token} (hfirst : firstWord? line = some word) (h : tokenize types resolver line = .ok tokens) :
    ∃ rest, tokens = wordToken types word :: rest := by
  obtain ⟨more, hlexemes⟩ := firstWord?_eq_some hfirst
  have hscan : scan line = Scan.push (.bare word.toList) ⟨more, (scan line).fault⟩ := by
    rw [Scan.push, ← hlexemes]
  change (scan line).tokens types resolver = .ok tokens at h
  rw [hscan, Scan.tokens_push, readThen_bare, String.ofList_toList] at h
  cases hrest : Scan.tokens types resolver ⟨more, (scan line).fault⟩ with
  | error f =>
    rw [hrest] at h
    cases h
  | ok rest =>
    rw [hrest] at h
    cases h
    exact ⟨rest, rfl⟩

/-- In a group no bare word comes first. -/
theorem head_of_group (seen cs word : List Char) (rest : List Lexeme) :
    (scanFrom .group seen cs).lexemes ≠ .bare word :: rest := by
  induction cs generalizing seen with
  | nil =>
    rw [scanFrom]
    simp
  | cons c cs ih =>
    rw [scanFrom]
    split
    · simp [Scan.push]
    · exact ih _

/-- A line that begins with a word is a statement. -/
theorem not_passive_of_firstWord {line word : String} (h : firstWord? line = some word) : isPassive line = false := by
  obtain ⟨more, hlexemes⟩ := firstWord?_eq_some h
  by_contra hpassive
  rw [Bool.not_eq_false, isPassive, Bool.or_eq_true] at hpassive
  rcases hpassive with hempty | hdirective
  · obtain rfl : line = "" := by simpa using hempty
    cases hlexemes
  · unfold isDirective at hdirective
    split at hdirective
    · rename_i inner hline
      rw [scan, hline, scanFrom] at hlexemes
      exact head_of_group [] inner word.toList more hlexemes
    · cases hdirective

/-! ## References -/

/-- Does a reference read the name as it is written: without the mark of globals in front and the mark of members? -/
def IsPlainName (name : String) : Prop := name.toList.head? ≠ some '_' ∧ '.' ∉ name.toList

instance (name : String) : Decidable (IsPlainName name) := inferInstanceAs (Decidable (_ ∧ _))

/-- The line that is a reference to a name. -/
def reference (name : String) : String := between "\\" name.toList "\\"

/-- **A reference by itself gives its value.** -/
theorem tokenize_reference {types : List WordType} {resolve : Resolver} {name : String} (hname : IsBareWord name)
    (hplain : IsPlainName name) :
    tokenize types (some resolve) (reference name) = (resolve ⟨name, .nearest⟩).map fun v => [⟨v, v.display⟩] := by
  obtain ⟨hne, hbare⟩ := hname
  have hinside : '\\' ∉ name.toList := fun h => (hbare '\\' h).2.2.2 rfl
  have hscore : name.toList ≠ ['_'] := by
    intro heq
    exact hplain.1 (by rw [heq]; rfl)
  have hregular : (Part.reference [] name.toList).Regular := ⟨by simp, hinside, hne, hscore⟩
  have hchars : (reference name).toList = (Part.reference [] name.toList).chars := by
    rw [reference, toList_between]
    rfl
  have hraw : Reference.ofRaw name.toList .nearest = ⟨name, .nearest⟩ := by
    unfold Reference.ofRaw
    split
    · rename_i rest heq
      exact absurd (by rw [heq]; rfl) hplain.1
    · rw [String.ofList_toList]
  rw [tokenize_part hregular hchars rfl, Lexeme.token]
  show Except.map _ (resolve (Reference.ofRaw name.toList .nearest) >>= _) = _
  rw [hraw]
  cases resolve ⟨name, .nearest⟩ <;> rfl

/-- A plain name is looked up as it is. -/
theorem resolver_of_plain (s : Symbols) (o : Objects) {name : String} (hplain : IsPlainName name) (reach : Reach) :
    LineScript.resolver s o ⟨name, reach⟩ = s.lookup name reach := by
  have hcut : cutString '.' name = none := by
    rw [cutString, cut_eq_none hplain.2]
    rfl
  unfold LineScript.resolver
  rw [hcut]

end LineScript
