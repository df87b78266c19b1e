/-
# Reading patterns

The written form of patterns: literals, `.`, classes in brackets, escapes, anchors, groups with names and
modes, alternatives and repetitions.  There are no back references and no look-around, and what is not a
pattern is refused: `Expr.ofText?` is `none` exactly for malformed texts.

The reader walks over the text once and keeps the modes in force, since a mode that is switched on inside
a group lasts to the end of that group.
-/
import LineScript.Pattern.Search

namespace LineScript.Pattern

open LineScript.Text

/-! ## State of the reader -/

/-- The modes that change the meaning of a pattern. -/
structure Modes where
  anyCase : Bool := false
  manyLines : Bool := false
  dotAll : Bool := false
  crlf : Bool := false
  unicode : Bool := true
  /-- Blanks and comments do not count. -/
  spaced : Bool := false
  lazy : Bool := false
  deriving Repr, DecidableEq

/-- What is left to read, the modes in force, and the group names in use. -/
structure Cursor where
  rest : List Char
  modes : Modes := {}
  names : List String := []

/-- A reader that may refuse. -/
abbrev Reading := StateT Cursor Option

/-- The next character, if any. -/
def peek? : Reading (Option Char) := return (← get).rest.head?

/-- The next character; refuses at the end. -/
def peek : Reading Char := do
  let some c := (← get).rest.head? | failure
  return c

/-- Pass over one character. -/
def bump : Reading Unit := modify fun c => { c with rest := c.rest.tail }

/-- Pass over a fixed text if it comes next, and tell whether it did. -/
def bumpIf (text : List Char) : Reading Bool := do
  let c ← get
  if text.isPrefixOf c.rest then
    set { c with rest := c.rest.drop text.length }
    return true
  else return false

/-- Refuse unless a condition holds. -/
def demand (b : Bool) : Reading Unit := if b then pure () else failure

/-- What is left after the blanks and comments that come next. -/
def dropSpaced : (fuel : Nat) → List Char → List Char
  | 0, cs => cs
  | fuel + 1, cs =>
    match cs.dropWhile isBlank with
    | '#' :: rest => dropSpaced fuel (rest.dropWhile (· != '\n'))
    | other => other

/-- Where blanks and comments do not count, pass over them. -/
def bumpSpace : Reading Unit := modify fun c =>
  if c.modes.spaced then { c with rest := dropSpaced (c.rest.length + 1) c.rest } else c

/-- Pass over one character and the blanks behind it; refuses if that reaches the end. -/
def bumpOn : Reading Unit := do
  bump
  bumpSpace
  demand !(← get).rest.isEmpty

/-- The character after the next one, blanks not counting where they do not count. -/
def peekSecond? : Reading (Option Char) := do
  let c ← get
  let rest := c.rest.tail
  return (if c.modes.spaced then dropSpaced (rest.length + 1) rest else rest).head?

/-! ## Escapes -/

/-- What an escape can stand for. -/
inductive Escaped
  | literal (c : Char)
  | set (s : CharSet)
  | look (l : Look)

/-- The characters with a meaning of their own. -/
def metaCharacters : List Char := "\\.+*?()|[]\x7b\x7d^$#&-~".toList

/-- May a backslash before this character be written without need? -/
def isEscapable (c : Char) : Bool :=
  c ∈ metaCharacters || (c.toNat < 0x80 && !c.isAlphanum && c != '<' && c != '>')

/-- The value of a hexadecimal digit. -/
def hexDigit? (c : Char) : Option Nat :=
  if '0' ≤ c && c ≤ '9' then some (c.toNat - '0'.toNat)
  else if 'a' ≤ c && c ≤ 'f' then some (c.toNat - 'a'.toNat + 10)
  else if 'A' ≤ c && c ≤ 'F' then some (c.toNat - 'A'.toNat + 10)
  else none

/-- The character with a code point, which must not be a surrogate. -/
def charOfCode (n : Nat) : Reading Char :=
  if n.isValidChar then return Char.ofNat n else failure

/-- Exactly `count` hexadecimal digits, the first of them next. -/
def hexDigits (value : Nat) : (count : Nat) → Reading Nat
  | 0 => return value
  | count + 1 => do
    let some d := hexDigit? (← peek) | failure
    if count = 0 then
      bump
      bumpSpace
    else bumpOn
    hexDigits (16 * value + d) count

/-- Hexadecimal digits up to a closing brace. -/
def hexBraced (value : Nat) (seen : Bool) : (fuel : Nat) → Reading Nat
  | 0 => failure
  | fuel + 1 => do
    let c ← peek
    if c = '\x7d' then
      demand seen
      bump
      bumpSpace
      return value
    let some d := hexDigit? c | failure
    bumpOn
    hexBraced (min (16 * value + d) 0x100000000) true fuel

/-- The class that a letter names, in upper case its complement. -/
def namedClass? (unicode : Bool) : Char → Option CharSet
  | 'd' => some (if unicode then .digit else .range 0x30 0x39)
  | 's' => some (if unicode then .blank else .union (.range 0x09 0x0D) (.range 0x20 0x20))
  | 'w' => if unicode then some .word else CharSet.ofAsciiName? "word"
  | _ => none

/-- The word characters that boundaries go by. -/
def wordSet (m : Modes) : CharSet := (namedClass? m.unicode 'w').getD .word

/-- The letters of the names of word boundaries. -/
def isBoundaryLetter (c : Char) : Bool := c.isAlpha || c == '-'

/-- The letters of the name of a word boundary. -/
def boundaryName (seen : List Char) : (fuel : Nat) → Reading (List Char)
  | 0 => failure
  | fuel + 1 => do
    match ← peek? with
    | some c =>
      if isBoundaryLetter c then
        bump
        bumpSpace
        boundaryName (seen ++ [c]) fuel
      else return seen
    | none => return seen

/-- The boundary named in braces after `\b`, if what comes next is such a name. -/
def namedBoundary? : Reading (Option Look) := do
  let start ← get
  bumpOn
  if isBoundaryLetter (← peek) then
    let name ← boundaryName [] (start.rest.length + 1)
    demand ((← peek) == '\x7d')
    bump
    let w := wordSet start.modes
    match String.ofList name with
    | "start" => return some (.wordStart w)
    | "end" => return some (.wordEnd w)
    | "start-half" => return some (.wordStartHalf w)
    | "end-half" => return some (.wordEndHalf w)
    | _ => failure
  else
    set start
    return none

/-- An escape; the backslash comes next. -/
def escape : Reading Escaped := do
  bump
  let c ← peek
  let m := (← get).modes
  if c.isDigit then failure
  else if c ∈ ['x', 'u', 'U'] then
    bumpOn
    let fuel := (← get).rest.length + 1
    let code ← if (← peek) = '\x7b' then do
        bumpOn
        hexBraced 0 false fuel
      else hexDigits 0 (if c = 'x' then 2 else if c = 'u' then 4 else 8)
    return .literal (← charOfCode code)
  else if let some s := namedClass? m.unicode c then
    bump
    return .set s
  else if let some s := namedClass? m.unicode c.toLower then
    demand m.unicode
    bump
    return .set (.complement s)
  else
    bump
    if isEscapable c then return .literal c
    match c with
    | 'a' => return .literal '\x07'
    | 'f' => return .literal '\x0c'
    | 't' => return .literal '\t'
    | 'n' => return .literal '\n'
    | 'r' => return .literal '\r'
    | 'v' => return .literal '\x0b'
    | 'A' => return .look .textStart
    | 'z' => return .look .textEnd
    | 'b' =>
      if (← peek?) = some '\x7b' then
        return .look ((← namedBoundary?).getD (.wordBoundary (wordSet m)))
      else return .look (.wordBoundary (wordSet m))
    | 'B' =>
      demand m.unicode
      return .look (.insideWord (wordSet m))
    | '<' => return .look (.wordStart (wordSet m))
    | '>' => return .look (.wordEnd (wordSet m))
    | _ => failure

/-! ## Classes in brackets -/

/-- The operations between the parts of a class. -/
inductive SetOp
  | meet | minus | difference

/-- Combine two sets; without regard to case, both are closed under case first. -/
def SetOp.apply (m : Modes) (op : SetOp) (a b : CharSet) : CharSet :=
  let a := if m.anyCase then .anyCase a else a
  let b := if m.anyCase then .anyCase b else b
  match op with
  | .meet => .meet a b
  | .minus => .minus a b
  | .difference => .difference a b

/-- Combine the parts before an operation with the set behind it. -/
def joinParts (m : Modes) (left : Option (CharSet × SetOp)) (right : CharSet) : CharSet :=
  match left with
  | some (a, op) => op.apply m a right
  | none => right

/-- A finished class: closed under case if case does not count, then complemented if it is negated. -/
def finishClass (m : Modes) (negated : Bool) (s : CharSet) : CharSet :=
  let s := if m.anyCase then .anyCase s else s
  if negated then .complement s else s

/-- A named class such as `[:alpha:]`, if one comes next. -/
def namedAscii? : Reading (Option CharSet) := do
  let start ← get
  if ← bumpIf ['[', ':'] then
    let negated ← bumpIf ['^']
    let c ← get
    let name := c.rest.takeWhile (· != ':')
    set { c with rest := c.rest.drop name.length }
    if ← bumpIf [':', ']'] then
      if let some s := CharSet.ofAsciiName? (String.ofList name) then
        return some (finishClass start.modes negated s)
  set start
  return none

/-- One member of a class: a character or an escape. -/
def classMember : Reading Escaped := do
  let c ← peek
  if c = '\\' then escape
  else
    bump
    return .literal c

/-- The set of a member that is not part of a range. -/
def Escaped.toSet : Escaped → Reading CharSet
  | .literal c => do
    demand ((← get).modes.unicode || c.toNat < 0x80)
    return .single c
  | .set s => return s
  | .look _ => failure

/-- A member or a range of members. -/
def classRange : Reading CharSet := do
  let first ← classMember
  bumpSpace
  let next ← peek
  let second ← peekSecond?
  if next ≠ '-' || second = some ']' || second = some '-' then first.toSet
  else
    bumpOn
    match first, ← classMember with
    | .literal a, .literal b =>
      demand (a.toNat ≤ b.toNat)
      demand ((← get).modes.unicode || b.toNat < 0x80)
      return .range a.toNat b.toNat
    | _, _ => failure

/-- Hyphens that open a class stand for themselves. -/
def leadingHyphens (s : CharSet) : (fuel : Nat) → Reading CharSet
  | 0 => failure
  | fuel + 1 => do
    if (← peek) = '-' then
      bumpOn
      leadingHyphens (.union s (.single '-')) fuel
    else return s

/-- The opening of a class: whether it is negated, and what it holds so far. -/
def classOpen : Reading (Bool × CharSet) := do
  bumpOn
  let negated := (← peek) = '^'
  if negated then bumpOn
  let fuel := (← get).rest.length + 1
  let hyphens ← leadingHyphens .none fuel
  if hyphens = .none && (← peek) = ']' then
    bumpOn
    return (negated, .single ']')
  else return (negated, hyphens)

mutual

/-- A class; its opening bracket comes next. -/
def bracketed : (fuel : Nat) → Reading CharSet
  | 0 => failure
  | fuel + 1 => do
    let (negated, start) ← classOpen
    let s ← classBody fuel none start
    let m := (← get).modes
    demand (m.unicode || !negated)
    return finishClass m negated s

/-- The rest of a class, `left` being what stands before the last operation. -/
def classBody : (fuel : Nat) → Option (CharSet × SetOp) → CharSet → Reading CharSet
  | 0, _, _ => failure
  | fuel + 1, left, s => do
    bumpSpace
    let m := (← get).modes
    let c ← peek
    if c = '[' then
      match ← namedAscii? with
      | some t => classBody fuel left (.union s t)
      | none => do
        let t ← bracketed fuel
        classBody fuel left (.union s t)
    else if c = ']' then
      bump
      return joinParts m left s
    else if ← bumpIf ['&', '&'] then classBody fuel (some (joinParts m left s, .meet)) .none
    else if ← bumpIf ['-', '-'] then classBody fuel (some (joinParts m left s, .minus)) .none
    else if ← bumpIf ['~', '~'] then classBody fuel (some (joinParts m left s, .difference)) .none
    else do
      let t ← classRange
      classBody fuel left (.union s t)

end

/-! ## Modes -/

/-- The modes after switching one of them. -/
def Modes.switch (m : Modes) (on : Bool) : Char → Option Modes
  | 'i' => some { m with anyCase := on }
  | 'm' => some { m with manyLines := on }
  | 's' => some { m with dotAll := on }
  | 'U' => some { m with lazy := on }
  | 'u' => some { m with unicode := on }
  | 'R' => some { m with crlf := on }
  | 'x' => some { m with spaced := on }
  | _ => none

/-- Mode letters up to a colon or a closing parenthesis; each may come once, and what follows a hyphen is
switched off. -/
def modeLetters (seen : List Char) : (fuel : Nat) → Modes → Reading (List Char × Modes)
  | 0, _ => failure
  | fuel + 1, m => do
    let c ← peek
    if c = ':' || c = ')' then
      demand (seen.getLast? != some '-')
      return (seen, m)
    demand (c ∉ seen)
    bump
    demand !(← get).rest.isEmpty
    if c = '-' then modeLetters (seen ++ [c]) fuel m
    else
      let some m := m.switch ('-' ∉ seen) c | failure
      modeLetters (seen ++ [c]) fuel m

/-! ## Groups -/

/-- May this character stand in the name of a group? -/
def isNameChar (first : Bool) (c : Char) : Bool :=
  c == '_' || (isWordChar c && !(first && isDecimalDigit c) && c != '_') ||
    (!first && c ∈ ['.', '[', ']'])

/-- The name of a group up to a closing angle bracket; names differ. -/
def groupName : Reading Unit := do
  let c ← get
  let name := c.rest.takeWhile (· != '>')
  demand (name.length < c.rest.length && !name.isEmpty)
  demand ((name.take 1).all (isNameChar true) && name.all (isNameChar false))
  let text := String.ofList name
  demand (text ∉ c.names)
  set { c with rest := c.rest.drop (name.length + 1), names := text :: c.names }

/-- What the opening of a group turned out to be. -/
inductive Opening
  /-- A group follows, in these modes. -/
  | group (m : Modes)
  /-- The modes are switched for the rest of the surrounding group. -/
  | modes (m : Modes)

/-- The opening of a group; its parenthesis comes next. -/
def groupOpen : Reading Opening := do
  bump
  bumpSpace
  let c ← get
  demand !(['?', '='].isPrefixOf c.rest || ['?', '!'].isPrefixOf c.rest ||
    ['?', '<', '='].isPrefixOf c.rest || ['?', '<', '!'].isPrefixOf c.rest)
  if (← bumpIf ['?', 'P', '<']) || (← bumpIf ['?', '<']) then
    groupName
    return .group c.modes
  else if ← bumpIf ['?'] then
    let (letters, m) ← modeLetters [] (c.rest.length + 1) c.modes
    let mark ← peek
    bump
    if mark = ')' then
      demand !letters.isEmpty
      return .modes m
    else return .group m
  else return .group c.modes

/-! ## Repetitions -/

/-- A decimal number in a repetition, with blanks around it; missing digits give `none`. -/
def countNumber : Reading (Option Nat) := do
  modify fun c => { c with rest := c.rest.dropWhile isBlank }
  let c ← get
  let kept := fun d => isDigit d || (c.modes.spaced && isBlank d)
  let digits := (c.rest.takeWhile kept).filter isDigit
  modify fun c => { c with rest := (c.rest.dropWhile kept).dropWhile isBlank }
  demand (digits.isEmpty || digitsValue digits < 0x100000000)
  return if digits.isEmpty then none else some (digitsValue digits)

/-- A question mark after a repetition only says which match is preferred. -/
def preference : Reading Unit := do
  let _ ← bumpIf ['?']
  pure ()

/-- A counted repetition; its opening brace comes next. -/
def counted (e : Expr) : Reading Expr := do
  bumpOn
  let least ← countNumber
  let bounds ← if (← peek) = ',' then do
      bumpOn
      let some least := least | failure
      if (← peek) = '\x7d' then pure (least, none)
      else
        let some most ← countNumber | failure
        pure (least, some most)
    else do
      let some least := least | failure
      pure (least, some least)
  demand ((← peek) == '\x7d')
  bump
  bumpSpace
  preference
  demand (bounds.2.all (bounds.1 ≤ ·))
  return .repeated e bounds.1 bounds.2

/-! ## Patterns -/

/-- One character, in a mode. -/
def charExpr (m : Modes) (s : CharSet) : Expr :=
  .char (if m.anyCase then .anyCase s else s)

/-- What a dot stands for. -/
def dotSet (m : Modes) : CharSet :=
  if m.dotAll then .all
  else if m.crlf then .complement (.union (.single '\n') (.single '\r'))
  else .complement (.single '\n')

/-- The part that a single character or an escape writes. -/
def single : Reading Expr := do
  let m := (← get).modes
  let c ← peek
  if c = '\\' then
    match ← escape with
    | .literal c => return charExpr m (.single c)
    | .set s => return .char s
    | .look l => return .look l
  bump
  match c with
  | '.' =>
    demand m.unicode
    return .char (dotSet m)
  | '^' => return .look (if !m.manyLines then .textStart else if m.crlf then .crlfStart else .lineStart)
  | '$' => return .look (if !m.manyLines then .textEnd else if m.crlf then .crlfEnd else .lineEnd)
  | c => return charExpr m (.single c)

/-- The parts of a sequence so far: all but the last, and the last if it can be repeated. -/
structure Parts where
  before : Expr := .empty
  last : Option Expr := none

/-- All parts as one pattern. -/
def Parts.close (p : Parts) : Expr :=
  match p.last with
  | some e => .seq p.before e
  | none => p.before

/-- One more part. -/
def Parts.push (p : Parts) (e : Expr) : Parts := ⟨p.close, some e⟩

/-- The last part replaced. -/
def Parts.replace (p : Parts) (e : Expr) : Parts := { p with last := some e }

/-- The parts with nothing left to repeat. -/
def Parts.seal (p : Parts) : Parts := ⟨p.close, none⟩

mutual

/-- Alternatives up to a closing parenthesis or the end. -/
def alternatives : (fuel : Nat) → Reading Expr
  | 0 => failure
  | fuel + 1 => do
    let first ← sequence fuel {}
    if ← bumpIf ['|'] then
      let rest ← alternatives fuel
      return .alt first rest
    else return first

/-- A sequence of parts up to a bar, a closing parenthesis or the end. -/
def sequence : (fuel : Nat) → Parts → Reading Expr
  | 0, _ => failure
  | fuel + 1, parts => do
    bumpSpace
    match ← peek? with
    | none => return parts.close
    | some '|' => return parts.close
    | some ')' => return parts.close
    | some '(' =>
      let outer := (← get).modes
      match ← groupOpen with
      | .modes m =>
        modify fun c => { c with modes := m }
        sequence fuel parts.seal
      | .group m =>
        modify fun c => { c with modes := m }
        let e ← alternatives fuel
        demand (← bumpIf [')'])
        modify fun c => { c with modes := outer }
        sequence fuel (parts.push e)
    | some '[' =>
      let s ← bracketed fuel
      sequence fuel (parts.push (.char s))
    | some '?' => simpleRepeat fuel parts 0 (some 1)
    | some '*' => simpleRepeat fuel parts 0 none
    | some '+' => simpleRepeat fuel parts 1 none
    | some '\x7b' =>
      let some e := parts.last | failure
      let e ← counted e
      sequence fuel (parts.replace e)
    | some _ =>
      let e ← single
      sequence fuel (parts.push e)

/-- A repetition without written counts, and what follows it. -/
def simpleRepeat : (fuel : Nat) → Parts → Nat → Option Nat → Reading Expr
  | 0, _, _, _ => failure
  | fuel + 1, parts, least, most => do
    let some e := parts.last | failure
    bump
    preference
    sequence fuel (parts.replace (.repeated e least most))

end

/-- Read a pattern. -/
def Expr.ofText? (text : String) : Option Expr := do
  let cs := text.toList
  let (e, cursor) ← (alternatives (4 * cs.length + 8)).run { rest := cs }
  guard cursor.rest.isEmpty
  return e

end LineScript.Pattern
