import SchemaEvolution.Json.Record
import SchemaEvolution.Text.Printable

/-!
# Kinds and keys

A schema has rows of eight kinds. A row is found by its key: tables and views by name, the
primary key by its table, and every other row by its name within its table or view.
-/

namespace SchemaEvolution

/-- The kinds of rows, in the order in which a schema lists them. -/
inductive Kind where
  | tables
  | columns
  | primaryKeys
  | foreignKeys
  | indexes
  | checks
  | views
  | viewColumns
deriving DecidableEq, Repr

/-- The tag of a kind. -/
instance : Word Kind where
  all := [.tables, .columns, .primaryKeys, .foreignKeys, .indexes, .checks, .views, .viewColumns]
  text
    | .tables => "tables"
    | .columns => "columns"
    | .primaryKeys => "pks"
    | .foreignKeys => "fks"
    | .indexes => "indexes"
    | .checks => "checks"
    | .views => "views"
    | .viewColumns => "viewColumns"

abbrev Kind.tag (k : Kind) : String := Word.text k

/-- The key of a row among the rows of its kind. -/
inductive Key where
  /-- A name, or the table of a primary key. -/
  | single (name : String)
  /-- A name within a table or a view. -/
  | scoped (owner name : String)
deriving DecidableEq, Repr

open Text

/-- A character of a name in a message: one that could be mistaken or not be seen is escaped. -/
def showChar (c : Char) : List Char :=
  if c = '\x00' then ['\\', '0']
  else if c = '\t' then ['\\', 't']
  else if c = '\r' then ['\\', 'r']
  else if c = '\n' then ['\\', 'n']
  else if c = '\\' ∨ c = '"' then ['\\', c]
  else if isExtender c || !isPrintable c then
    ['\\', 'u', '{'] ++ Nat.toDigits 16 c.toNat ++ ['}']
  else [c]

/-- A name in double quotes for a message. -/
def showName (s : String) : String :=
  String.ofList ('"' :: s.toList.flatMap showChar ++ ['"'])

/-- A key in a message. -/
def Key.shown : Key → String
  | .single name => showName name
  | .scoped owner name => "(" ++ showName owner ++ ", " ++ showName name ++ ")"

/-- A key as a document: its name, or owner and name. -/
instance : JsonForm Key where
  toJson
    | .single name => toJson name
    | .scoped owner name => toJson [owner, name]
  read?
    | _, .string name => some (.single name)
    | _, .array [.string owner, .string name] => some (.scoped owner name)
    | _, _ => none

end SchemaEvolution
