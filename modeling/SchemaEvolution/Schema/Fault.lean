import SchemaEvolution.Text.Blank

/-!
# Faults

A fault is a place in given data, written as a path, and what was expected there.
-/

namespace SchemaEvolution

open Text

/-- What was expected at a place. -/
structure Fault where
  path : String
  expected : String
deriving DecidableEq, Repr

namespace Fault

/-- The fault in one line. -/
def message (f : Fault) : String :=
  f.path ++ ": expected " ++ f.expected

/-- The path of a row in a list. -/
def rowPath (path : String) (i : Nat) : String :=
  path ++ "[" ++ toString i ++ "]"

/-- The fault of an identifier that is empty or blank. -/
def ofIdentifier (path field value : String) : List Fault :=
  if trim value.toList = [] then [⟨path ++ "." ++ field, "non-empty identifier"⟩] else []

/-- The fault of an empty list of columns. -/
def ofColumns {α : Type} (path field : String) (columns : List α) : List Fault :=
  if columns.isEmpty then [⟨path ++ "." ++ field, "at least one column"⟩] else []

end Fault

end SchemaEvolution
