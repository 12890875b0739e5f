import SchemaEvolution.Change.Difference

/-!
# Statements

The operations that a migration is made of, each with exactly what its text needs. As a document
a statement is an object with the tag of its kind.
-/

namespace SchemaEvolution

/-- A table with everything that its creation declares. -/
structure TableDefinition where
  name : String
  columns : List Column
  primaryKey : Option PrimaryKey
  /-- The foreign keys that are declared with the table; the others are added later. -/
  foreignKeys : List ForeignKey
  /-- The unique indexes. -/
  uniques : List Index
  checks : List Check
deriving DecidableEq, Repr

instance : Record TableDefinition where
  fields := ["name", "columns", "pk", "fks", "uniques", "checks"]
  toMembers t := [("name", toJson t.name), ("columns", toJson t.columns),
    ("pk", toJson t.primaryKey), ("fks", toJson t.foreignKeys), ("uniques", toJson t.uniques),
    ("checks", toJson t.checks)]
  ofGiven? g := do
    return {
      name := ← g.required? "name"
      columns := ← g.required? "columns"
      primaryKey := ← g.required? "pk"
      foreignKeys := ← g.required? "fks"
      uniques := ← g.required? "uniques"
      checks := ← g.required? "checks" }

/-- The sorts of constraints that are dropped by name. -/
inductive ConstraintSort where
  | foreignKey
  | check
deriving DecidableEq, Repr

instance : Word ConstraintSort where
  all := [.foreignKey, .check]
  text
    | .foreignKey => "foreign_key"
    | .check => "check"

/-- An operation of a migration. -/
inductive Statement where
  | createTable (table : TableDefinition)
  | dropTable (table : String)
  | renameTable (old new : String)
  /-- `isKey`: the clause of the column declares the primary key. -/
  | addColumn (column : Column) (isKey : Bool)
  | dropColumn (column : Column)
  | renameColumn (table old new : String)
  /-- `column` is the column as it is to be; `wasKey`: it is the primary key already. -/
  | alterColumn (alteration : ColumnAlteration) (column : Column) (isKey wasKey : Bool)
  | recreateColumn (column : Column) (isKey : Bool)
  | createIndex (index : Index)
  | dropIndex (index : Index)
  | createForeignKey (key : ForeignKey)
  | dropConstraint (table name : String) (sort : ConstraintSort)
  | createPrimaryKey (key : PrimaryKey)
  | dropPrimaryKey (key : PrimaryKey)
  | createCheck (check : Check)
  /-- `replaces`: a view of that name exists. -/
  | createView (view : View) (replaces : Bool)
  | alterView (view : View)
  | dropView (name : String)
  | renameView (old new : String)
deriving DecidableEq

inductive StatementKind where
  | createTable
  | dropTable
  | renameTable
  | addColumn
  | dropColumn
  | renameColumn
  | alterColumn
  | recreateColumn
  | createIndex
  | dropIndex
  | createForeignKey
  | dropConstraint
  | createPrimaryKey
  | dropPrimaryKey
  | createCheck
  | createView
  | alterView
  | dropView
  | renameView
deriving DecidableEq, Repr

/-- The tag of a kind. -/
instance : Word StatementKind where
  all := [.createTable, .dropTable, .renameTable, .addColumn, .dropColumn, .renameColumn,
    .alterColumn, .recreateColumn, .createIndex, .dropIndex, .createForeignKey, .dropConstraint,
    .createPrimaryKey, .dropPrimaryKey, .createCheck, .createView, .alterView, .dropView,
    .renameView]
  text
    | .createTable => "create_table"
    | .dropTable => "drop_table"
    | .renameTable => "rename_table"
    | .addColumn => "add_column"
    | .dropColumn => "drop_column"
    | .renameColumn => "rename_column"
    | .alterColumn => "alter_column"
    | .recreateColumn => "recreate_column"
    | .createIndex => "create_index"
    | .dropIndex => "drop_index"
    | .createForeignKey => "create_fk"
    | .dropConstraint => "drop_constraint"
    | .createPrimaryKey => "create_pk"
    | .dropPrimaryKey => "drop_pk"
    | .createCheck => "create_check"
    | .createView => "create_view"
    | .alterView => "alter_view"
    | .dropView => "drop_view"
    | .renameView => "rename_view"

abbrev StatementKind.tag (k : StatementKind) : String := Word.text k

namespace Statement

def kind : Statement → StatementKind
  | .createTable .. => .createTable
  | .dropTable .. => .dropTable
  | .renameTable .. => .renameTable
  | .addColumn .. => .addColumn
  | .dropColumn .. => .dropColumn
  | .renameColumn .. => .renameColumn
  | .alterColumn .. => .alterColumn
  | .recreateColumn .. => .recreateColumn
  | .createIndex .. => .createIndex
  | .dropIndex .. => .dropIndex
  | .createForeignKey .. => .createForeignKey
  | .dropConstraint .. => .dropConstraint
  | .createPrimaryKey .. => .createPrimaryKey
  | .dropPrimaryKey .. => .dropPrimaryKey
  | .createCheck .. => .createCheck
  | .createView .. => .createView
  | .alterView .. => .alterView
  | .dropView .. => .dropView
  | .renameView .. => .renameView

/-- The table that a statement is about; a statement on a view has none. -/
def table? : Statement → Option String
  | .createTable t => some t.name
  | .dropTable t => some t
  | .renameTable _ new => some new
  | .addColumn c _ => some c.table
  | .dropColumn c => some c.table
  | .renameColumn t _ _ => some t
  | .alterColumn _ c _ _ => some c.table
  | .recreateColumn c _ => some c.table
  | .createIndex i => some i.table
  | .dropIndex i => some i.table
  | .createForeignKey k => some k.table
  | .dropConstraint t _ _ => some t
  | .createPrimaryKey k => some k.table
  | .dropPrimaryKey k => some k.table
  | .createCheck c => some c.table
  | .createView .. => none
  | .alterView .. => none
  | .dropView .. => none
  | .renameView .. => none

def tagField : String := "type"

/-- The members of a statement, without the tag. -/
def members : Statement → Members
  | .createTable t => [("table", toJson t)]
  | .dropTable t => [("table", toJson t)]
  | .renameTable old new => [("from", toJson old), ("to", toJson new)]
  | .addColumn c isKey => [("column", toJson c), ("isPK", toJson isKey)]
  | .dropColumn c => [("column", toJson c)]
  | .renameColumn t old new => [("table", toJson t), ("from", toJson old), ("to", toJson new)]
  | .alterColumn a c isKey wasKey =>
    [("diff", toJson a), ("column", toJson c), ("isPK", toJson isKey), ("wasPK", toJson wasKey)]
  | .recreateColumn c isKey => [("column", toJson c), ("isPK", toJson isKey)]
  | .createIndex i => [("index", toJson i)]
  | .dropIndex i => [("index", toJson i)]
  | .createForeignKey k => [("fk", toJson k)]
  | .dropConstraint t n sort =>
    [("table", toJson t), ("constraint", toJson n), ("kind", toJson sort)]
  | .createPrimaryKey k => [("pk", toJson k)]
  | .dropPrimaryKey k => [("pk", toJson k)]
  | .createCheck c => [("check", toJson c)]
  | .createView v replaces => [("view", toJson v), ("replace", toJson replaces)]
  | .alterView v => [("view", toJson v)]
  | .dropView n => [("name", toJson n)]
  | .renameView old new => [("from", toJson old), ("to", toJson new)]

/-- The fields of a statement of a kind, without the tag. -/
def fields : StatementKind → List String
  | .createTable => ["table"]
  | .dropTable => ["table"]
  | .renameTable => ["from", "to"]
  | .addColumn => ["column", "isPK"]
  | .dropColumn => ["column"]
  | .renameColumn => ["table", "from", "to"]
  | .alterColumn => ["diff", "column", "isPK", "wasPK"]
  | .recreateColumn => ["column", "isPK"]
  | .createIndex => ["index"]
  | .dropIndex => ["index"]
  | .createForeignKey => ["fk"]
  | .dropConstraint => ["table", "constraint", "kind"]
  | .createPrimaryKey => ["pk"]
  | .dropPrimaryKey => ["pk"]
  | .createCheck => ["check"]
  | .createView => ["view", "replace"]
  | .alterView => ["view"]
  | .dropView => ["name"]
  | .renameView => ["from", "to"]

/-- The statement of a kind that is given. -/
def ofGiven? (g : Given) : StatementKind → Option Statement
  | .createTable => return .createTable (← g.required? "table")
  | .dropTable => return .dropTable (← g.required? "table")
  | .renameTable => return .renameTable (← g.required? "from") (← g.required? "to")
  | .addColumn => return .addColumn (← g.required? "column") (← g.required? "isPK")
  | .dropColumn => return .dropColumn (← g.required? "column")
  | .renameColumn =>
    return .renameColumn (← g.required? "table") (← g.required? "from") (← g.required? "to")
  | .alterColumn =>
    return .alterColumn (← g.required? "diff") (← g.required? "column") (← g.required? "isPK")
      (← g.required? "wasPK")
  | .recreateColumn => return .recreateColumn (← g.required? "column") (← g.required? "isPK")
  | .createIndex => return .createIndex (← g.required? "index")
  | .dropIndex => return .dropIndex (← g.required? "index")
  | .createForeignKey => return .createForeignKey (← g.required? "fk")
  | .dropConstraint =>
    return .dropConstraint (← g.required? "table") (← g.required? "constraint")
      (← g.required? "kind")
  | .createPrimaryKey => return .createPrimaryKey (← g.required? "pk")
  | .dropPrimaryKey => return .dropPrimaryKey (← g.required? "pk")
  | .createCheck => return .createCheck (← g.required? "check")
  | .createView => return .createView (← g.required? "view") (← g.required? "replace")
  | .alterView => return .alterView (← g.required? "view")
  | .dropView => return .dropView (← g.required? "name")
  | .renameView => return .renameView (← g.required? "from") (← g.required? "to")

/-- The statement of a kind that a gathered document without the tag holds. -/
def ofKind? (x : Json) (kind : StatementKind) : Option Statement :=
  (Given.ofJson? (fields kind) .gathered x).bind fun g => ofGiven? g kind

end Statement

/-- The tag is a member of the object, or the first item of the array. -/
instance : JsonForm Statement where
  toJson s := .object ((Statement.tagField, toJson s.kind) :: s.members)
  read?
    | _, .object ms => do
      let tag : String ← (Members.find? ms Statement.tagField).bind ofJson?
      let kind ← Word.ofText? tag
      Statement.ofKind? (.object (ms.filter fun m => m.1 != Statement.tagField)) kind
    | _, .array (.string tag :: xs) => do
      let kind ← Word.ofText? tag
      Statement.ofKind? (.array xs) kind
    | _, _ => none

end SchemaEvolution
