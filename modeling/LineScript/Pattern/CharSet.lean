/-
# Sets of characters in patterns

The sets that one position of a pattern can ask for, built from ranges and the classes of digits, blanks
and word characters by the set operations.  `CharSet.anyCase` closes a set under letter case.
-/
import LineScript.Text.Blank
import LineScript.Text.Case
import LineScript.Text.Property

namespace LineScript.Pattern

open LineScript.Text

/-- A set of characters. -/
inductive CharSet
  | range (first last : Nat)
  | digit
  | blank
  | word
  | union (a b : CharSet)
  | meet (a b : CharSet)
  | minus (a b : CharSet)
  | complement (a : CharSet)
  /-- The set together with all that differs from its members in case only. -/
  | anyCase (a : CharSet)
  deriving Repr, DecidableEq, Inhabited

namespace CharSet

/-- Membership. -/
def mem : CharSet → Char → Bool
  | range first last, c => first ≤ c.toNat && c.toNat ≤ last
  | digit, c => isDecimalDigit c
  | blank, c => isBlank c
  | word, c => isWordChar c
  | union a b, c => a.mem c || b.mem c
  | meet a b, c => a.mem c && b.mem c
  | minus a b, c => a.mem c && !b.mem c
  | complement a, c => !a.mem c
  | anyCase a, c => a.mem c || (caseVariants c).any a.mem

/-- The set of one character. -/
def single (c : Char) : CharSet := range c.toNat c.toNat

/-- The set without members. -/
def none : CharSet := range 1 0

/-- All characters. -/
def all : CharSet := range 0 0x10FFFF

/-- The members of exactly one of two sets. -/
def difference (a b : CharSet) : CharSet := union (minus a b) (minus b a)

/-- The union of some ranges. -/
def ofRanges (ranges : List (Char × Char)) : CharSet :=
  ranges.foldl (fun s (a, b) => union s (range a.toNat b.toNat)) none

/-- The named classes of ASCII characters. -/
def ofAsciiName? : String → Option CharSet
  | "alnum" => some (ofRanges [('0', '9'), ('A', 'Z'), ('a', 'z')])
  | "alpha" => some (ofRanges [('A', 'Z'), ('a', 'z')])
  | "ascii" => some (range 0 0x7F)
  | "blank" => some (ofRanges [('\t', '\t'), (' ', ' ')])
  | "cntrl" => some (union (range 0 0x1F) (range 0x7F 0x7F))
  | "digit" => some (ofRanges [('0', '9')])
  | "graph" => some (ofRanges [('!', '~')])
  | "lower" => some (ofRanges [('a', 'z')])
  | "print" => some (ofRanges [(' ', '~')])
  | "punct" => some (ofRanges [('!', '/'), (':', '@'), ('[', '\x60'), ('\x7b', '~')])
  | "space" => some (union (range 0x09 0x0D) (range 0x20 0x20))
  | "upper" => some (ofRanges [('A', 'Z')])
  | "word" => some (ofRanges [('0', '9'), ('A', 'Z'), ('_', '_'), ('a', 'z')])
  | "xdigit" => some (ofRanges [('0', '9'), ('A', 'F'), ('a', 'f')])
  | _ => Option.none

end CharSet

end LineScript.Pattern
