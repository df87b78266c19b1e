/-
# What an argument may be

A specification admits every value, the values of some types, or some literal words.  `Spec.ofText` reads
the written form: `any`, `number|relpos`, `=with|to`.
-/
import LineScript.Text.Blank

namespace LineScript

open LineScript.Text

/-- What one argument of a keyword may be. -/
inductive Spec
  | any
  | tags (names : List String)
  | words (choices : List String)
  deriving DecidableEq, Repr, Inhabited

namespace Spec

/-- The pieces of a list written with bars. -/
def choices (cs : List Char) : List String :=
  (pieces '|' cs).map String.ofList

/-- Read the written form of a specification; blanks around it do not count. -/
def ofText (s : String) : Spec :=
  match trimChars s.toList with
  | ['a', 'n', 'y'] => any
  | '=' :: rest => words (choices rest)
  | cs => tags (choices cs)

/-- How a specification is named in messages. -/
def display : Spec → String
  | any => "any"
  | tags names => String.intercalate "|" names
  | words ws => "one of '" ++ String.intercalate "', '" ws ++ "'"

end Spec

end LineScript
