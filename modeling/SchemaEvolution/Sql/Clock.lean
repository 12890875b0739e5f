import SchemaEvolution.Sql.Expression
import SchemaEvolution.Text.Digit
import SchemaEvolution.Text.Split

/-!
# The current time

Four names call the clock, with or without parentheses and with an optional precision. All calls
of one precision are one expression, written `current_timestamp` or `current_timestamp(p)`.
-/

namespace SchemaEvolution.Sql.Clock

open Text

/-- The names of the clock. -/
def names : List String :=
  ["now", "current_timestamp", "localtime", "localtimestamp"]

/-- The precision in an argument list that is the whole text: no list and an empty one have the
empty precision. -/
def precision? (cs : List Char) : Option (List Char) :=
  match trimStart cs with
  | [] => some []
  | '(' :: rest =>
    let inner := trimStart rest
    if trimStart (inner.dropWhile isDecimalDigit) = [')'] then
      some (inner.takeWhile isDecimalDigit)
    else none
  | _ => none

/-- The precision of a text in lower case that calls the clock. -/
def call? (cs : List Char) : Option (List Char) :=
  names.findSome? fun name => (dropStart? name.toList cs).bind precision?

/-- The one text of all expressions that differ in redundant parentheses, letter case, blanks or
the way they call the clock. -/
def canonical (raw : List Char) : List Char :=
  let text := Expression.folded (Expression.withoutOuterParens raw)
  match call? text with
  | none => text
  | some p =>
    if p = [] ∨ p = ['0'] then "current_timestamp".toList
    else "current_timestamp(".toList ++ p ++ [')']

end SchemaEvolution.Sql.Clock
