import SchemaEvolution.Error
import SchemaEvolution.Schema.Collection
import SchemaEvolution.Schema.Entity

/-!
# Catalogs

A catalog is a whole schema: one collection for each kind of row. Rows refer to each other by
name, and nothing forces a name to exist. `ofEntities` builds a catalog from rows that must be
free of faults and have distinct keys, and reports everything that is wrong with them at once.
-/

namespace SchemaEvolution

/-- A schema. -/
structure Catalog where
  tables : Collection Table := .empty
  columns : Collection Column := .empty
  primaryKeys : Collection PrimaryKey := .empty
  foreignKeys : Collection ForeignKey := .empty
  indexes : Collection Index := .empty
  checks : Collection Check := .empty
  views : Collection View := .empty
  viewColumns : Collection ViewColumn := .empty
deriving DecidableEq

namespace Catalog

def empty : Catalog := {}

instance : Inhabited Catalog := ⟨empty⟩

/-- Inserts a row, unless its key is taken. -/
def insert (c : Catalog) : Entity → Catalog
  | .table row => { c with tables := c.tables.insert row }
  | .column row => { c with columns := c.columns.insert row }
  | .primaryKey row => { c with primaryKeys := c.primaryKeys.insert row }
  | .foreignKey row => { c with foreignKeys := c.foreignKeys.insert row }
  | .index row => { c with indexes := c.indexes.insert row }
  | .check row => { c with checks := c.checks.insert row }
  | .view row => { c with views := c.views.insert row }
  | .viewColumn row => { c with viewColumns := c.viewColumns.insert row }

/-- The row of a kind with a key. -/
def find? (c : Catalog) (kind : Kind) (key : Key) : Option Entity :=
  match kind with
  | .tables => (c.tables.get? key).map .table
  | .columns => (c.columns.get? key).map .column
  | .primaryKeys => (c.primaryKeys.get? key).map .primaryKey
  | .foreignKeys => (c.foreignKeys.get? key).map .foreignKey
  | .indexes => (c.indexes.get? key).map .index
  | .checks => (c.checks.get? key).map .check
  | .views => (c.views.get? key).map .view
  | .viewColumns => (c.viewColumns.get? key).map .viewColumn

/-- The row that stands under the key of a given row. -/
def stored? (c : Catalog) (e : Entity) : Option Entity :=
  c.find? e.kind e.key

/-- All rows, kind by kind. -/
def entities (c : Catalog) : List Entity :=
  c.tables.rows.map .table ++ c.columns.rows.map .column ++
    c.primaryKeys.rows.map .primaryKey ++ c.foreignKeys.rows.map .foreignKey ++
    c.indexes.rows.map .index ++ c.checks.rows.map .check ++ c.views.rows.map .view ++
    c.viewColumns.rows.map .viewColumn

def size (c : Catalog) : Nat :=
  c.entities.length

/-- Whether two catalogs hold the same rows, in whatever order. -/
def sameRows (c d : Catalog) : Bool :=
  c.tables.sameRows d.tables && c.columns.sameRows d.columns &&
    c.primaryKeys.sameRows d.primaryKeys && c.foreignKeys.sameRows d.foreignKeys &&
    c.indexes.sameRows d.indexes && c.checks.sameRows d.checks && c.views.sameRows d.views &&
    c.viewColumns.sameRows d.viewColumns

def columnsOf (c : Catalog) (table : String) : List Column :=
  c.columns.rows.filter (·.table == table)

def primaryKeyOf? (c : Catalog) (table : String) : Option PrimaryKey :=
  c.primaryKeys.get? (.single table)

def column? (c : Catalog) (table name : String) : Option Column :=
  c.columns.get? (.scoped table name)

/-! ## Loading -/

/-- The catalog of rows inserted one after the other; a row whose key is taken is left out. -/
def ofEntitiesLoose (es : List Entity) : Catalog :=
  es.foldl insert empty

/-- The list that holds the rows of a schema in a document. -/
def rowsField : String := "ddl"

/-- The faults of rows in a list, starting at a position: those of each row by itself, and the
fault of a key that an earlier row has taken. -/
def loadFaults (c : Catalog) (i : Nat) : List Entity → List Fault
  | [] => []
  | e :: es =>
    let path := Fault.rowPath rowsField i
    let repetition :=
      if (c.stored? e).isSome then [⟨path, "unique " ++ e.describe⟩] else []
    e.faults path ++ repetition ++ loadFaults (c.insert e) (i + 1) es

/-- The catalog of given rows. -/
def ofEntities (es : List Entity) : Except Error Catalog :=
  match loadFaults empty 0 es with
  | [] => .ok (ofEntitiesLoose es)
  | faults => .error (.invalid faults)

end Catalog

end SchemaEvolution
