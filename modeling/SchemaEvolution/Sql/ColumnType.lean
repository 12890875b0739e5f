import SchemaEvolution.Sql.Expression
import SchemaEvolution.Text.Split

/-!
# Column types

The text of a column type in three parts: the base name, the arguments in parentheses, and what
follows them. Letter case and the number of blanks do not matter, so the parts are in lower case
with single spaces, and the arguments hold no blanks.
-/

namespace SchemaEvolution.Sql

open Text

/-- A column type, taken apart. -/
structure ColumnType where
  base : String
  args : Option String
  modifiers : String
deriving DecidableEq, Repr

namespace ColumnType

/-- Base names of two words. -/
def twoWordBases : List String :=
  ["double precision", "long varchar", "long varbinary"]

/-- What follows a base name in a text of words: nothing, or a space and more. -/
def afterBase? (base : String) (cs : List Char) : Option (List Char) :=
  match dropStart? base.toList cs with
  | some [] => some []
  | some (' ' :: rest) => some (trim rest)
  | _ => none

/-- The base name and what follows it, of a type without parentheses. -/
def splitBase (cs : List Char) : List Char × List Char :=
  match twoWordBases.findSome? fun b => (afterBase? b cs).map fun rest => (b.toList, rest) with
  | some parts => parts
  | none => (cutAt [' '] cs).getD (cs, [])

/-- Takes the text of a type apart. An argument list that does not close runs to the end. -/
def ofChars (raw : List Char) : ColumnType :=
  let text := Expression.folded raw
  match cutAt ['('] text with
  | none =>
    let (base, modifiers) := splitBase text
    ⟨String.ofList base, none, String.ofList modifiers⟩
  | some (base, rest) =>
    let (args, modifiers) := (cutAt [')'] rest).getD (rest, [])
    ⟨String.ofList (trim base), some (String.ofList (withoutBlanks args)),
      String.ofList (trim modifiers)⟩

/-- Takes the text of a type apart. -/
def ofString (raw : String) : ColumnType :=
  ofChars raw.toList

def render (t : ColumnType) : String :=
  t.base ++ (t.args.elim "" fun a => "(" ++ a ++ ")") ++
    (if t.modifiers = "" then "" else " " ++ t.modifiers)

/-- Whether the values of the type are dates or times. -/
def isTemporal (t : ColumnType) : Bool :=
  ["date", "datetime", "timestamp", "time", "year"].contains t.base

/-- Whether the type counts its rows by itself. -/
def isSerial (t : ColumnType) : Bool :=
  t.base == "serial"

end ColumnType

end SchemaEvolution.Sql
