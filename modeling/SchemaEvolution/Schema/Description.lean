import SchemaEvolution.Json.Reader
import SchemaEvolution.Schema.Catalog

/-!
# Schema descriptions

A description lists the rows of a schema kind by kind. A column may say by itself that it is in
the primary key of its table or unique: `Catalog.ofDescription` collects these shorthands while it
inserts the columns, and makes indexes and keys of them. Tables, columns and indexes that are
declared again are reported all at once; any other row whose key is taken ends the loading.
-/

namespace SchemaEvolution

/-! ## Declared columns -/

/-- A column with shorthands. -/
structure DeclaredColumn where
  column : Column
  /-- Whether the column is in the primary key of its table. -/
  isKey : Bool := false
  /-- Whether the column alone has a unique index. -/
  isUnique : Bool := false
  /-- The name of that unique index. -/
  uniqueName : Option String := none
deriving DecidableEq, Repr

namespace DeclaredColumn

/-- The fields of the shorthands. -/
def shorthands : List String :=
  ["isPK", "isUnique", "uniqueName"]

/-- How many arrays and objects of a description are around the members of a column. -/
def depth : Nat := 3

/-- The unique index that a column asks for. -/
def uniqueIndex? (d : DeclaredColumn) : Option Index :=
  if d.isUnique then
    let i := Index.implicit d.column.table [.column d.column.name] true
    some (d.uniqueName.elim i i.withName)
  else none

end DeclaredColumn

/-- The members of the column and of the shorthands stand in one object, and those of the column
are gathered from it. Every member of it must have a value, even one that is ignored. -/
instance : JsonForm DeclaredColumn where
  toJson d := .object (toMembers d.column ++ [("isPK", toJson d.isKey),
    ("isUnique", toJson d.isUnique), ("uniqueName", toJson d.uniqueName)])
  read?
    | reading, .object ms => do
      let own := ms.filter fun m => DeclaredColumn.shorthands.contains m.1
      let rest := ms.filter fun m => !DeclaredColumn.shorthands.contains m.1
      if (own.map (·.1)).Nodup ∧
          rest.all fun m => m.2.hasValue (Json.maxDepth - DeclaredColumn.depth)
      then
        let g : Given := ⟨reading, own, false⟩
        return {
          column := ← JsonForm.read? .gathered (.object rest)
          isKey := ← g.optional? "isPK" false
          isUnique := ← g.optional? "isUnique" false
          uniqueName := ← g.optional? "uniqueName" none }
      else none
    | _, _ => none

/-! ## Descriptions -/

/-- The rows of a schema, kind by kind. -/
structure Description where
  tables : List Table := []
  columns : List DeclaredColumn := []
  primaryKeys : List PrimaryKey := []
  foreignKeys : List ForeignKey := []
  indexes : List Index := []
  checks : List Check := []
  views : List View := []
  viewColumns : List ViewColumn := []
deriving DecidableEq, Repr

instance : Record Description where
  fields := ["tables", "columns", "pks", "fks", "indexes", "checks", "views", "viewColumns"]
  toMembers d := [("tables", toJson d.tables), ("columns", toJson d.columns),
    ("pks", toJson d.primaryKeys), ("fks", toJson d.foreignKeys), ("indexes", toJson d.indexes),
    ("checks", toJson d.checks), ("views", toJson d.views),
    ("viewColumns", toJson d.viewColumns)]
  ofGiven? g := do
    return {
      tables := ← g.optional? "tables" []
      columns := ← g.optional? "columns" []
      primaryKeys := ← g.optional? "pks" []
      foreignKeys := ← g.optional? "fks" []
      indexes := ← g.optional? "indexes" []
      checks := ← g.optional? "checks" []
      views := ← g.optional? "views" []
      viewColumns := ← g.optional? "viewColumns" [] }

namespace Description

def ofText (text : String) : Except Error Description :=
  match (Json.ofString? text).bind ofJson? with
  | some d => .ok d
  | none => .error .unreadable

end Description

/-! ## Columns in primary keys -/

/-- The columns that are in primary keys by table, in the order of the table names. -/
abbrev KeyColumns := List (String × List String)

namespace KeyColumns

/-- Adds a column to those of its table. -/
def add (table column : String) : KeyColumns → KeyColumns
  | [] => [(table, [column])]
  | (t, columns) :: rest =>
    if table = t then (t, columns ++ [column]) :: rest
    else if table < t then (table, [column]) :: (t, columns) :: rest
    else (t, columns) :: add table column rest

def primaryKeys (keys : KeyColumns) : List PrimaryKey :=
  keys.map fun (table, columns) => .implicit table columns

end KeyColumns

/-! ## Rows that are declared -/

/-- What has been loaded of a description. -/
structure Loading where
  catalog : Catalog := {}
  /-- The tables, columns and indexes that were declared again. -/
  conflicts : List NameConflict := []
  keyColumns : KeyColumns := []
  /-- The unique indexes that columns ask for. -/
  uniqueIndexes : List Index := []

namespace Loading

/-- Inserts a row, or notes a conflict if its key is taken. -/
def declare (s : Loading) (row : Entity) (conflict : NameConflict) : Loading :=
  if (s.catalog.stored? row).isSome then { s with conflicts := s.conflicts ++ [conflict] }
  else { s with catalog := s.catalog.insert row }

/-- Notes the shorthands of a column. -/
def note (s : Loading) (d : DeclaredColumn) : Loading :=
  { s with
    keyColumns :=
      if d.isKey then s.keyColumns.add d.column.table d.column.name else s.keyColumns
    uniqueIndexes := s.uniqueIndexes ++ d.uniqueIndex?.toList }

def table (s : Loading) (t : Table) : Loading :=
  s.declare (.table t) (.table t.name)

/-- Declares a column, whose shorthands count even if it is declared again. -/
def column (s : Loading) (d : DeclaredColumn) : Loading :=
  (s.note d).declare (.column d.column) (.column d.column.table d.column.name)

def index (s : Loading) (i : Index) : Loading :=
  s.declare (.index i) (.index i.table i.name)

/-- Declares the tables, the columns, and the indexes, those that columns ask for first. -/
def ofDescription (d : Description) : Loading :=
  let s := d.tables.foldl table {}
  let s := d.columns.foldl column s
  (s.uniqueIndexes ++ d.indexes).foldl index s

end Loading

/-! ## Catalogs -/

namespace Catalog

/-- Inserts rows that must be new, and fails at the first one whose key is taken. -/
def insertNew {α : Type} (toEntity : α → Entity) (clash : α → KeyClash) (c : Catalog) :
    List α → Except Error Catalog
  | [] => .ok c
  | x :: xs =>
    if (c.stored? (toEntity x)).isSome then .error (.clash (clash x))
    else (c.insert (toEntity x)).insertNew toEntity clash xs

/-- The catalog that a description declares. -/
def ofDescription (d : Description) : Except Error Catalog :=
  let s := Loading.ofDescription d
  if s.conflicts ≠ [] then .error (.conflicts s.conflicts)
  else do
    let c ← s.catalog.insertNew .primaryKey (fun k => .primaryKey k.table)
      (d.primaryKeys ++ s.keyColumns.primaryKeys)
    let c ← c.insertNew .foreignKey (fun k => .foreignKey k.table k.name) d.foreignKeys
    let c ← c.insertNew .check (fun k => .check k.table k.name) d.checks
    let c ← c.insertNew .view (fun v => .view v.name) d.views
    c.insertNew .viewColumn (fun w => .viewColumn w.view w.name) d.viewColumns

end Catalog

end SchemaEvolution
