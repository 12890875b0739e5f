import SchemaEvolution.Schema.Check
import SchemaEvolution.Schema.Column
import SchemaEvolution.Schema.ForeignKey
import SchemaEvolution.Schema.Index
import SchemaEvolution.Schema.PrimaryKey
import SchemaEvolution.Schema.Table
import SchemaEvolution.Schema.View

/-!
# Rows of any kind

An entity is a row of one of the eight kinds. As a document it is the object of the row with the
tag of its kind in front.
-/

namespace SchemaEvolution

/-- A row of any kind. -/
inductive Entity where
  | table (row : Table)
  | column (row : Column)
  | primaryKey (row : PrimaryKey)
  | foreignKey (row : ForeignKey)
  | index (row : Index)
  | check (row : Check)
  | view (row : View)
  | viewColumn (row : ViewColumn)
deriving DecidableEq, Repr

namespace Entity

/-- A function of a row, whatever its kind. -/
def elim {β : Type} (f : {α : Type} → [Row α] → α → β) : Entity → β
  | .table row => f row
  | .column row => f row
  | .primaryKey row => f row
  | .foreignKey row => f row
  | .index row => f row
  | .check row => f row
  | .view row => f row
  | .viewColumn row => f row

def kind (e : Entity) : Kind :=
  e.elim fun {α} _ _ => Row.kind α

/-- The key of the row among the rows of its kind. -/
def key (e : Entity) : Key :=
  e.elim Row.key

/-- The row in words, for messages. -/
def describe (e : Entity) : String :=
  e.elim Row.describe

/-- The faults of the row at a path. -/
def faults (path : String) (e : Entity) : List Fault :=
  e.elim (Row.faults path)

def tagField : String := "entityType"

/-- The row of a kind that a gathered document without the tag holds. -/
def ofRow? (x : Json) : Kind → Option Entity
  | .tables => (JsonForm.read? .gathered x).map .table
  | .columns => (JsonForm.read? .gathered x).map .column
  | .primaryKeys => (JsonForm.read? .gathered x).map .primaryKey
  | .foreignKeys => (JsonForm.read? .gathered x).map .foreignKey
  | .indexes => (JsonForm.read? .gathered x).map .index
  | .checks => (JsonForm.read? .gathered x).map .check
  | .views => (JsonForm.read? .gathered x).map .view
  | .viewColumns => (JsonForm.read? .gathered x).map .viewColumn

end Entity

/-- The tag is a member of the object, or the first item of the array. -/
instance : JsonForm Entity where
  toJson e := .object ((Entity.tagField, toJson e.kind) :: e.elim toMembers)
  read?
    | _, .object ms => do
      let tag : String ← (Members.find? ms Entity.tagField).bind ofJson?
      let kind ← Word.ofText? tag
      Entity.ofRow? (.object (ms.filter fun m => m.1 != Entity.tagField)) kind
    | _, .array (.string tag :: xs) => do
      let kind ← Word.ofText? tag
      Entity.ofRow? (.array xs) kind
    | _, _ => none

end SchemaEvolution
