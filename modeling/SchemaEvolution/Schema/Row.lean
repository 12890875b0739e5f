import SchemaEvolution.Schema.Fault
import SchemaEvolution.Schema.Key

/-!
# Rows

What the rows of every kind have in common: a kind, a key, a description for messages, and the
faults that their types do not rule out.
-/

namespace SchemaEvolution

/-- The rows of one kind. -/
class Row (α : Type) extends Record α where
  kind : Kind
  key : α → Key
  describe : α → String
  /-- The faults of a row at a path. -/
  faults : String → α → List Fault

/-- A name in single quotes for a description. -/
def named (name : String) : String :=
  "'" ++ name ++ "'"

end SchemaEvolution
