/-
# Searching for a pattern

A pattern describes texts; a search asks whether some part of a given text is one of them.  The search
moves a set of marked positions through the pattern: `Expr.advance` takes the positions at which a match
can begin to those at which it can end.  A text of `n` characters has `n + 1` positions, the marks before
each character and the last one behind them.
-/
import LineScript.Pattern.CharSet

namespace LineScript.Pattern

open LineScript.Text

/-! ## Patterns -/

/-- A condition on the characters before and after a position. -/
inductive Look
  | textStart
  | textEnd
  | lineStart
  | lineEnd
  /-- Line boundaries at which a carriage return with line feed is one line end. -/
  | crlfStart
  | crlfEnd
  | wordBoundary (letters : CharSet)
  | insideWord (letters : CharSet)
  | wordStart (letters : CharSet)
  | wordEnd (letters : CharSet)
  | wordStartHalf (letters : CharSet)
  | wordEndHalf (letters : CharSet)
  deriving Repr

/-- Does the condition hold between two characters, either of which may be missing? -/
def Look.holds (before after : Option Char) : Look → Bool
  | textStart => before.isNone
  | textEnd => after.isNone
  | lineStart => before.all (· == '\n')
  | lineEnd => after.all (· == '\n')
  | crlfStart => before.all fun c => c == '\n' || (c == '\r' && after != some '\n')
  | crlfEnd => after.all fun c => c == '\r' || (c == '\n' && before != some '\r')
  | wordBoundary w => before.any w.mem != after.any w.mem
  | insideWord w => before.any w.mem == after.any w.mem
  | wordStart w => !before.any w.mem && after.any w.mem
  | wordEnd w => before.any w.mem && !after.any w.mem
  | wordStartHalf w => !before.any w.mem
  | wordEndHalf w => !after.any w.mem

/-- A pattern. -/
inductive Expr
  | empty
  | char (s : CharSet)
  | look (l : Look)
  | seq (a b : Expr)
  | alt (a b : Expr)
  /-- At least `least` times, and at most `most` times if there is a bound. -/
  | repeated (a : Expr) (least : Nat) (most : Option Nat)
  deriving Repr, Inhabited

/-! ## Marks -/

/-- The marked positions of a text, one entry for each position. -/
abbrev Marks := List Bool

/-- Positions marked in either list. -/
def Marks.union (a b : Marks) : Marks := a.zipWith (· || ·) b

/-- Marks before members of a set move behind them; `marks` has one entry more than the text. -/
def Marks.over (s : CharSet) (text : List Char) (marks : Marks) : Marks :=
  false :: text.zipWith (fun c m => m && s.mem c) marks

/-- Marks at positions that meet a condition, `before` being the character before the first of them. -/
def Marks.at (l : Look) (before : Option Char) : List Char → Marks → Marks
  | [], marks => marks.map fun m => m && l.holds before none
  | c :: rest, m :: marks => (m && l.holds before (some c)) :: Marks.at l (some c) rest marks
  | _ :: _, [] => []

/-- Apply a step up to `n` times, as long as it changes something. -/
def Marks.iterate (f : Marks → Marks) : Nat → Marks → Marks
  | 0, marks => marks
  | n + 1, marks =>
    let next := f marks
    if next = marks then marks else Marks.iterate f n next

/-! ## The search -/

/-- From the positions where a match can begin to those where it can end.

A repetition needs no more rounds than there are positions: the mandatory rounds beyond that number change
nothing, and the optional ones only add positions. -/
def Expr.advance (text : List Char) : Expr → Marks → Marks
  | empty, marks => marks
  | char s, marks => Marks.over s text marks
  | look l, marks => Marks.at l none text marks
  | seq a b, marks => b.advance text (a.advance text marks)
  | alt a b, marks => Marks.union (a.advance text marks) (b.advance text marks)
  | repeated a least most, marks =>
    let rounds := text.length + 2
    let start := Marks.iterate (a.advance text) (min least rounds) marks
    let optional := match most with
      | some m => min (m - least) rounds
      | none => rounds
    Marks.iterate (fun ms => Marks.union ms (a.advance text ms)) optional start

/-- Does some part of the text match? -/
def Expr.isFoundIn (e : Expr) (text : String) : Bool :=
  let cs := text.toList
  (e.advance cs (List.replicate (cs.length + 1) true)).any id

end LineScript.Pattern
