/-
# The grammar of a line

What a line is written of, said without the pass that reads it: blanks, bare runs, quoted parts, groups in brackets
and references between backslashes (`Part`), one after the other (`WrittenAs`).  The only rule between neighbours is
that a bare run goes on as far as it can; the run `-` or `:` before a reference belongs to the reference.  The token of
a part is said without the pass, too (`Part.token?`): a group has one element for each piece between its bars.

`scanFrom_spelling` reads back what was written so, and `exists_parts_of_scanFrom` finds the parts of every line that
the pass accepts.  Together they say that the pass accepts this grammar and nothing else, and `tokenizeInert_iff` says
it of the tokens of an unread line.
-/
import LineScript.Proofs.Script.Checking
import LineScript.Proofs.Text.Blank
import Mathlib.Data.List.Chain

namespace LineScript

open LineScript.Text

/-! ## Parts -/

/-- A character of bare runs: neither blank nor the opening of another part. -/
def IsBareChar (c : Char) : Prop := isBlank c = false ∧ c ≠ '"' ∧ c ≠ '[' ∧ c ≠ '\\'

/-- What a line is written of. -/
inductive Part
  | blank (c : Char)
  | bare (word : List Char)
  | quoted (text : List Char)
  | group (inner : List Char)
  /-- A reference with the bare run before it that says where to look. -/
  | reference (mark raw : List Char)

namespace Part

/-- The characters of a part. -/
def chars : Part → List Char
  | blank c => [c]
  | bare word => word
  | quoted text => '"' :: text ++ ['"']
  | group inner => '[' :: inner ++ [']']
  | reference mark raw => mark ++ '\\' :: raw ++ ['\\']

/-- Is the part what its name says: without its own closing mark inside, a run not empty and a reference with a
name? -/
def Regular : Part → Prop
  | blank c => isBlank c = true
  | bare word => word ≠ [] ∧ ∀ c ∈ word, IsBareChar c
  | quoted text => '"' ∉ text
  | group inner => ']' ∉ inner
  | reference mark raw => mark ∈ [[], ['-'], [':']] ∧ '\\' ∉ raw ∧ raw ≠ [] ∧ raw ≠ ['_']

/-- May the second part stand directly behind the first?  A bare run would go on in another one, or be the mark of a
reference. -/
def MayPrecede : Part → Part → Prop
  | bare _, bare _ => False
  | bare _, reference _ _ => False
  | _, _ => True

/-- The elements of a group as they are written: what stands between its bars.  An empty group has none. -/
def elements (inner : List Char) : List (List Char) := if inner = [] then [] else inner.splitOn '|'

/-- The token of a part whose references stay unread.  Blanks only separate. -/
def token? (types : List WordType) : Part → Option Token
  | blank _ => none
  | bare word => some ⟨classify types (coerce types (String.ofList word)), String.ofList word⟩
  | quoted text => some ⟨.string (String.ofList text), String.ofList text⟩
  | group inner =>
    some ⟨.group ((elements inner).map fun element => classify types (coerce types (String.ofList element))),
      String.ofList ('[' :: inner ++ [']'])⟩
  | reference _ raw =>
    let text := String.ofList ('\\' :: raw ++ ['\\'])
    some ⟨.identifier text, text⟩

/-- The lexeme of a part. -/
def lexeme? : Part → Option Lexeme
  | blank _ => none
  | bare word => some (.bare word)
  | quoted text => some (.quoted text)
  | group inner => some (.group inner)
  | reference mark raw => some (.reference raw ((Reach.ofMark mark).getD .nearest))

end Part

/-- The characters of some parts, one after the other. -/
def spelling (parts : List Part) : List Char := parts.flatMap Part.chars

/-- The tokens of some parts whose references stay unread: one for each part that is not blank. -/
def tokensOf (types : List WordType) (parts : List Part) : List Token := parts.filterMap (Part.token? types)

/-- Are these characters written as these parts? -/
structure WrittenAs (chars : List Char) (parts : List Part) : Prop where
  spelled : chars = spelling parts
  regular : ∀ p ∈ parts, p.Regular
  maximal : parts.IsChain Part.MayPrecede

@[simp] theorem spelling_nil : spelling [] = [] := rfl

@[simp] theorem spelling_cons (p : Part) (parts : List Part) :
    spelling (p :: parts) = p.chars ++ spelling parts := rfl

@[simp] theorem spelling_append (front back : List Part) :
    spelling (front ++ back) = spelling front ++ spelling back :=
  List.flatMap_append

theorem WrittenAs.nil : WrittenAs [] [] := ⟨rfl, by simp, by simp⟩

/-- One more part in front. -/
theorem WrittenAs.cons {p : Part} {parts : List Part} {chars : List Char} (hp : p.Regular)
    (hfirst : ∀ q ∈ parts.head?, p.MayPrecede q) (h : WrittenAs chars parts) :
    WrittenAs (p.chars ++ chars) (p :: parts) where
  spelled := by rw [spelling_cons, h.spelled]
  regular := List.forall_mem_cons.mpr ⟨hp, h.regular⟩
  maximal := List.isChain_cons.mpr ⟨hfirst, h.maximal⟩

/-! ## Where a bare run ends -/

/-- Does a bare run end before this text: at its end, at a blank or where a quoted part or a group opens? -/
def EndsWord : List Char → Prop
  | [] => True
  | c :: _ => isBlank c = true ∨ c = '"' ∨ c = '['

/-- A part that may follow a bare run ends it. -/
theorem Part.endsWord_of_mayPrecede {word : List Char} {p : Part} (hp : p.Regular) (h : (bare word).MayPrecede p)
    (rest : List Char) : EndsWord (p.chars ++ rest) := by
  cases p with
  | blank c => exact Or.inl hp
  | bare other => exact h.elim
  | quoted text => exact Or.inr (Or.inl rfl)
  | group inner => exact Or.inr (Or.inr rfl)
  | reference mark raw => exact h.elim

/-- A part that ends bare runs may follow one. -/
theorem Part.mayPrecede_of_endsWord {word rest : List Char} {p : Part} (hp : p.Regular)
    (h : EndsWord (p.chars ++ rest)) : (bare word).MayPrecede p := by
  cases p with
  | blank c => exact trivial
  | quoted text => exact trivial
  | group inner => exact trivial
  | bare other =>
    obtain ⟨hne, hbare⟩ := hp
    cases other with
    | nil => exact absurd rfl hne
    | cons c more =>
      -- A bare run begins with a bare character, which ends no run.
      obtain ⟨hblank, hquote, hbracket, -⟩ := hbare c List.mem_cons_self
      rcases h with hb | hq | hg
      · rw [hb] at hblank
        cases hblank
      · exact hquote hq
      · exact hbracket hg
  | reference mark raw =>
    -- A reference begins with its mark or with a backslash.
    obtain ⟨hmark, -⟩ := hp
    have hnone : ¬ EndsWord ((reference mark raw).chars ++ rest) := by
      simp only [List.mem_cons, List.not_mem_nil, or_false] at hmark
      rcases hmark with rfl | rfl | rfl <;> simp [EndsWord, Part.chars, isBlank]
    exact absurd h hnone

/-- A bare run in front of a text that ends it. -/
theorem WrittenAs.cons_bare {word chars : List Char} {parts : List Part} (hword : (Part.bare word).Regular)
    (hends : EndsWord chars) (h : WrittenAs chars parts) : WrittenAs (word ++ chars) (.bare word :: parts) := by
  refine WrittenAs.cons hword ?_ h
  intro q hq
  obtain ⟨more, rfl⟩ := List.head?_eq_some_iff.mp hq
  rw [h.spelled, spelling_cons] at hends
  exact Part.mayPrecede_of_endsWord (h.regular q List.mem_cons_self) hends

/-- Bare characters, if any, in front of a text that ends them. -/
theorem WrittenAs.exists_of_bare {word chars : List Char} {parts : List Part} (hword : ∀ c ∈ word, IsBareChar c)
    (hends : EndsWord chars) (h : WrittenAs chars parts) : ∃ parts, WrittenAs (word ++ chars) parts := by
  by_cases hempty : word = []
  · subst hempty
    exact ⟨parts, h⟩
  · exact ⟨_, h.cons_bare ⟨hempty, hword⟩ hends⟩

/-! ## Reading what is written -/

/-- A character inside of a region. -/
def Region.Holds : Region → Char → Prop
  | plain, c => IsBareChar c
  | quoted, c => c ≠ '"'
  | group, c => c ≠ ']'
  | reference _, c => c ≠ '\\'

/-- A character inside of a region is gathered. -/
theorem scanFrom_cons_of_holds {region : Region} {c : Char} (h : region.Holds c) (seen rest : List Char) :
    scanFrom region seen (c :: rest) = scanFrom region (seen ++ [c]) rest := by
  cases region with
  | plain =>
    obtain ⟨hblank, hquote, hbracket, hslash⟩ := h
    simp [scanFrom, hblank, hquote, hbracket, hslash]
  | quoted | group | reference reach => rw [scanFrom, if_neg h]

/-- **The inside of a region is gathered** as a whole. -/
theorem scanFrom_gather {region : Region} {text : List Char} (h : ∀ c ∈ text, region.Holds c) (seen rest : List Char) :
    scanFrom region seen (text ++ rest) = scanFrom region (seen ++ text) rest := by
  induction text generalizing seen with
  | nil => simp
  | cons c text ih =>
    obtain ⟨hc, htext⟩ := List.forall_mem_cons.mp h
    rw [List.cons_append, scanFrom_cons_of_holds hc, ih htext, List.append_assoc, List.singleton_append]

/-- Gathered bare characters are a lexeme as soon as something ends them. -/
theorem scanFrom_endsWord {rest : List Char} (hends : EndsWord rest) (word : List Char) :
    scanFrom .plain word rest = (scanFrom .plain [] rest).pushBare word := by
  cases rest with
  | nil => simp [scanFrom, Scan.pushBare]
  | cons c rest =>
    simp only [scanFrom]
    rcases hends with hb | rfl | rfl
    · simp [hb, Scan.pushBare]
    · simp [isBlank, Scan.pushBare]
    · simp [isBlank, Scan.pushBare]

theorem namesSomething_iff {raw : List Char} : namesSomething raw = true ↔ raw ≠ [] ∧ raw ≠ ['_'] := by
  unfold namesSomething
  split <;> simp_all

/-- The three marks are bare characters, and each asks for a reach. -/
theorem isBareChar_of_mark {mark : List Char} (h : mark ∈ [[], ['-'], [':']]) :
    (∀ c ∈ mark, IsBareChar c) ∧ ∃ reach, Reach.ofMark mark = some reach := by
  simp only [List.mem_cons, List.not_mem_nil, or_false] at h
  rcases h with rfl | rfl | rfl
  · exact ⟨by simp, .nearest, rfl⟩
  · exact ⟨by simp [IsBareChar, isBlank], .locals, rfl⟩
  · exact ⟨by simp [IsBareChar, isBlank], .parameters, rfl⟩

/-- A scan with the lexeme of one more part in front, if it has one. -/
def Scan.pushPart (p : Part) (s : Scan) : Scan :=
  match p.lexeme? with
  | some l => s.push l
  | none => s

/-- **One part is read**: the pass goes on behind it with nothing gathered. -/
theorem scanFrom_part {p : Part} (hp : p.Regular) {rest : List Char}
    (hends : ∀ word, p = .bare word → EndsWord rest) :
    scanFrom .plain [] (p.chars ++ rest) = (scanFrom .plain [] rest).pushPart p := by
  cases p with
  | blank c =>
    replace hp : isBlank c = true := hp
    simp [Part.chars, scanFrom, hp, Scan.pushBare, Scan.pushPart, Part.lexeme?]
  | bare word =>
    obtain ⟨hne, hbare⟩ := hp
    have hgather : scanFrom .plain [] (word ++ rest) = scanFrom .plain ([] ++ word) rest :=
      scanFrom_gather hbare [] rest
    show scanFrom .plain [] (word ++ rest) = (scanFrom .plain [] rest).push (.bare word)
    rw [hgather, List.nil_append, scanFrom_endsWord (hends word rfl), Scan.pushBare]
    simp [hne]
  | quoted text =>
    have hinside : ∀ c ∈ text, Region.quoted.Holds c := List.forall_mem_ne'.mpr hp
    have hgather := scanFrom_gather hinside [] ('"' :: rest)
    have hopen : scanFrom .plain [] ('"' :: (text ++ '"' :: rest)) = scanFrom .quoted [] (text ++ '"' :: rest) := by
      simp [scanFrom, isBlank, Scan.pushBare]
    rw [hgather] at hopen
    simpa [Part.chars, Scan.pushPart, Part.lexeme?, scanFrom] using hopen
  | group inner =>
    have hinside : ∀ c ∈ inner, Region.group.Holds c := List.forall_mem_ne'.mpr hp
    have hgather := scanFrom_gather hinside [] (']' :: rest)
    have hopen : scanFrom .plain [] ('[' :: (inner ++ ']' :: rest)) = scanFrom .group [] (inner ++ ']' :: rest) := by
      simp [scanFrom, isBlank, Scan.pushBare]
    rw [hgather] at hopen
    simpa [Part.chars, Scan.pushPart, Part.lexeme?, scanFrom] using hopen
  | reference mark raw =>
    obtain ⟨hmark, hraw, hname⟩ := hp
    obtain ⟨hbare, reach, hreach⟩ := isBareChar_of_mark hmark
    have hinside : ∀ c ∈ raw, (Region.reference reach).Holds c := List.forall_mem_ne'.mpr hraw
    have hgather := scanFrom_gather hinside [] ('\\' :: rest)
    have hopen : scanFrom .plain mark ('\\' :: (raw ++ '\\' :: rest)) =
        scanFrom (.reference reach) [] (raw ++ '\\' :: rest) := by
      simp [scanFrom, isBlank, hreach]
    have hbefore : scanFrom .plain [] (mark ++ '\\' :: (raw ++ '\\' :: rest)) =
        scanFrom .plain mark ('\\' :: (raw ++ '\\' :: rest)) :=
      scanFrom_gather hbare [] _
    have hread := hbefore.trans (hopen.trans hgather)
    simpa [Part.chars, Scan.pushPart, Part.lexeme?, scanFrom, hreach, namesSomething_iff.mpr hname] using hread

/-- **What is written is read back**, also before a text that ends its last word. -/
theorem scanFrom_spelling_append {parts : List Part} (hregular : ∀ p ∈ parts, p.Regular)
    (hmaximal : parts.IsChain Part.MayPrecede) {rest : List Char} (hrest : EndsWord rest) :
    scanFrom .plain [] (spelling parts ++ rest) =
      ⟨parts.filterMap Part.lexeme? ++ (scanFrom .plain [] rest).lexemes, (scanFrom .plain [] rest).fault⟩ := by
  induction parts with
  | nil => rfl
  | cons p parts ih =>
    obtain ⟨hp, hparts⟩ := List.forall_mem_cons.mp hregular
    obtain ⟨hfirst, hchain⟩ := List.isChain_cons.mp hmaximal
    have hends : ∀ word, p = .bare word → EndsWord (spelling parts ++ rest) := by
      rintro word rfl
      cases parts with
      | nil => exact hrest
      | cons q more =>
        rw [spelling_cons, List.append_assoc]
        exact Part.endsWord_of_mayPrecede (hparts q List.mem_cons_self) (hfirst q rfl) _
    rw [spelling_cons, List.append_assoc, scanFrom_part hp hends, ih hparts hchain]
    cases hlexeme : p.lexeme? <;> simp [Scan.pushPart, Scan.push, hlexeme]

theorem scanFrom_spelling {parts : List Part} (hregular : ∀ p ∈ parts, p.Regular)
    (hmaximal : parts.IsChain Part.MayPrecede) :
    scanFrom .plain [] (spelling parts) = ⟨parts.filterMap Part.lexeme?, none⟩ := by
  have hends : EndsWord [] := trivial
  have hread := scanFrom_spelling_append hregular hmaximal hends
  simpa [scanFrom, Scan.pushBare] using hread

/-! ## Finding what was written -/

/-- What opens a region. -/
inductive Region.Opening : Region → List Char → Prop
  | plain : Opening .plain []
  | quoted : Opening .quoted ['"']
  | group : Opening .group ['[']
  | reference {mark : List Char} {reach : Reach} :
    Reach.ofMark mark = some reach → Opening (.reference reach) (mark ++ ['\\'])

theorem Reach.mark_of_ofMark {mark : List Char} {reach : Reach} (h : Reach.ofMark mark = some reach) :
    mark ∈ [[], ['-'], [':']] := by
  unfold Reach.ofMark at h
  split at h <;> simp_all

/-- A character that no bare run holds is a blank or opens another region. -/
theorem not_isBareChar {c : Char} (h : ¬ IsBareChar c) : isBlank c = true ∨ c = '"' ∨ c = '[' ∨ c = '\\' := by
  by_contra hnone
  simp only [not_or, Bool.not_eq_true] at hnone
  exact h hnone

/-- **A line that the pass accepts is written as some parts.** -/
theorem exists_parts_of_scanFrom {region : Region} {opening seen rest : List Char}
    (h : (scanFrom region seen rest).fault = none) (hopening : region.Opening opening)
    (hseen : ∀ c ∈ seen, region.Holds c) : ∃ parts, WrittenAs (opening ++ seen ++ rest) parts := by
  -- The induction is on the text that is left; a part is complete where the pass comes back to plain text.
  induction rest generalizing region opening seen with
  | nil =>
    cases hopening with
    | plain =>
      have hends : EndsWord [] := trivial
      simpa using WrittenAs.nil.exists_of_bare hseen hends
    | quoted | group | reference => simp [scanFrom] at h
  | cons c rest ih =>
    have hfresh {region : Region} : ∀ c ∈ ([] : List Char), region.Holds c := by simp
    by_cases hc : region.Holds c
    · -- One more character inside of the region.
      rw [scanFrom_cons_of_holds hc] at h
      have hmore : ∀ d ∈ seen ++ [c], region.Holds d :=
        List.forall_mem_append.mpr ⟨hseen, List.forall_mem_singleton.mpr hc⟩
      simpa using ih h hopening hmore
    · cases hopening with
      | plain =>
        obtain hblank | rfl | rfl | rfl := not_isBareChar hc
        · simp only [scanFrom, hblank, if_true, fault_pushBare] at h
          obtain ⟨parts, hparts⟩ := ih h .plain hfresh
          have hcons : WrittenAs (c :: rest) (.blank c :: parts) :=
            hparts.cons (p := .blank c) hblank (by simp [Part.MayPrecede])
          exact hcons.exists_of_bare hseen (Or.inl hblank)
        · have hquoted : (scanFrom .quoted [] rest).fault = none := by
            simpa [scanFrom, isBlank, fault_pushBare] using h
          obtain ⟨parts, hparts⟩ := ih hquoted .quoted hfresh
          exact hparts.exists_of_bare hseen (Or.inr (Or.inl rfl))
        · have hgroup : (scanFrom .group [] rest).fault = none := by
            simpa [scanFrom, isBlank, fault_pushBare] using h
          obtain ⟨parts, hparts⟩ := ih hgroup .group hfresh
          exact hparts.exists_of_bare hseen (Or.inr (Or.inr rfl))
        · cases hreach : Reach.ofMark seen with
          | none => simp [scanFrom, isBlank, hreach] at h
          | some reach =>
            have hreference : (scanFrom (.reference reach) [] rest).fault = none := by
              simpa [scanFrom, isBlank, hreach] using h
            simpa using ih hreference (.reference hreach) hfresh
      | quoted =>
        obtain rfl : c = '"' := not_not.mp hc
        have hplain : (scanFrom .plain [] rest).fault = none := by simpa [scanFrom, Scan.push] using h
        obtain ⟨parts, hparts⟩ := ih hplain .plain hfresh
        have hcons := hparts.cons (p := .quoted seen) (List.forall_mem_ne'.mp hseen) (by simp [Part.MayPrecede])
        exact ⟨_, by simpa [Part.chars] using hcons⟩
      | group =>
        obtain rfl : c = ']' := not_not.mp hc
        have hplain : (scanFrom .plain [] rest).fault = none := by simpa [scanFrom, Scan.push] using h
        obtain ⟨parts, hparts⟩ := ih hplain .plain hfresh
        have hcons := hparts.cons (p := .group seen) (List.forall_mem_ne'.mp hseen) (by simp [Part.MayPrecede])
        exact ⟨_, by simpa [Part.chars] using hcons⟩
      | @reference mark reach hreach =>
        obtain rfl : c = '\\' := not_not.mp hc
        by_cases hname : namesSomething seen = true
        · have hplain : (scanFrom .plain [] rest).fault = none := by simpa [scanFrom, Scan.push, hname] using h
          obtain ⟨parts, hparts⟩ := ih hplain .plain hfresh
          have hregular : (Part.reference mark seen).Regular :=
            ⟨Reach.mark_of_ofMark hreach, List.forall_mem_ne'.mp hseen, namesSomething_iff.mp hname⟩
          have hcons := hparts.cons hregular (by simp [Part.MayPrecede])
          exact ⟨_, by simpa [Part.chars] using hcons⟩
        · simp [scanFrom, hname] at h

/-! ## The language of the pass -/

/-- **The pass accepts the grammar and nothing else**, and the lexemes it finds are those of the parts. -/
theorem scan_iff {line : String} {lexemes : List Lexeme} :
    scan line = ⟨lexemes, none⟩ ↔ ∃ parts, WrittenAs line.toList parts ∧ lexemes = parts.filterMap Part.lexeme? := by
  constructor
  · intro h
    have hfault : (scanFrom .plain [] line.toList).fault = none := by
      show (scan line).fault = none
      rw [h]
    obtain ⟨parts, hparts⟩ := exists_parts_of_scanFrom hfault .plain (by simp)
    rw [List.nil_append, List.nil_append] at hparts
    refine ⟨parts, hparts, ?_⟩
    have hread := scanFrom_spelling hparts.regular hparts.maximal
    rw [← hparts.spelled] at hread
    have hboth : (⟨lexemes, none⟩ : Scan) = ⟨parts.filterMap Part.lexeme?, none⟩ := h.symm.trans hread
    exact congrArg Scan.lexemes hboth
  · rintro ⟨parts, hparts, rfl⟩
    unfold scan
    rw [hparts.spelled]
    exact scanFrom_spelling hparts.regular hparts.maximal

/-- The pass cuts groups at their bars. -/
theorem groupItems_eq (inner : List Char) : groupItems inner = (Part.elements inner).map String.ofList := by
  unfold groupItems Part.elements
  rw [pieces_eq_splitOn]
  cases inner <;> rfl

theorem between_eq (first last : Char) (inner : List Char) :
    between (String.singleton first) inner (String.singleton last) = String.ofList (first :: inner ++ [last]) := by
  rw [String.ext_iff]
  simp [between]

/-- **The pass gives a part the token that it should have.** -/
theorem Part.token?_eq (types : List WordType) (p : Part) : p.token? types = p.lexeme?.map (·.unread types) := by
  cases p with
  | blank c => rfl
  | bare word => rfl
  | quoted text => rfl
  | group inner =>
    have htext : between "[" inner "]" = String.ofList ('[' :: inner ++ [']']) := between_eq '[' ']' inner
    rw [lexeme?, Option.map_some, Lexeme.unread, groupItems_eq, htext, List.map_map]
    rfl
  | reference mark raw =>
    have htext : between "\\" raw "\\" = String.ofList ('\\' :: raw ++ ['\\']) := between_eq '\\' '\\' raw
    rw [lexeme?, Option.map_some, Lexeme.unread, htext]
    rfl

theorem tokensOf_eq (types : List WordType) (parts : List Part) :
    tokensOf types parts = (parts.filterMap Part.lexeme?).map (·.unread types) := by
  rw [tokensOf, List.map_filterMap]
  exact List.filterMap_congr fun p _ => p.token?_eq types

/-- The tokens of an unread line are those of its parts. -/
theorem tokenizeInert_iff {types : List WordType} {line : String} {tokens : List Token} :
    tokenizeInert types line = .ok tokens ↔ ∃ parts, WrittenAs line.toList parts ∧ tokens = tokensOf types parts := by
  rw [tokenizeInert_eq]
  constructor
  · intro h
    cases hfault : (scan line).fault with
    | some f => simp [hfault] at h
    | none =>
      have hscan : scan line = ⟨(scan line).lexemes, none⟩ := by rw [← hfault]
      obtain ⟨parts, hparts, hlexemes⟩ := scan_iff.mp hscan
      simp only [hfault, Except.ok.injEq] at h
      exact ⟨parts, hparts, by rw [← h, hlexemes, tokensOf_eq]⟩
  · rintro ⟨parts, hparts, rfl⟩
    rw [scan_iff.mpr ⟨parts, hparts, rfl⟩, tokensOf_eq]

/-- **The tokenizer accepts exactly its grammar.**  Unread, a line has tokens if and only if it is written as blanks,
bare runs, quoted parts, groups and references, and its tokens are those of the parts in their order (`Part.token?`).
Every other line is a syntax error. -/
theorem tokenizeInert_accepts_grammar (types : List WordType) (line : String) :
    (∀ tokens, tokenizeInert types line = .ok tokens ↔
      ∃ parts, WrittenAs line.toList parts ∧ tokens = tokensOf types parts) ∧
    ((¬ ∃ parts, WrittenAs line.toList parts) →
      ∃ f, tokenizeInert types line = .error f ∧ f.kind = .form) := by
  constructor
  · intro tokens
    exact tokenizeInert_iff
  · intro hnone
    cases hfault : (scan line).fault with
    | none =>
      have hscan : scan line = ⟨(scan line).lexemes, none⟩ := by rw [← hfault]
      obtain ⟨parts, hparts, -⟩ := scan_iff.mp hscan
      exact absurd ⟨parts, hparts⟩ hnone
    | some f =>
      refine ⟨f, ?_, kind_of_scanFrom hfault⟩
      rw [tokenizeInert_eq, hfault]

end LineScript
