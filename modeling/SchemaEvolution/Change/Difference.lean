import SchemaEvolution.Change.Alteration
import SchemaEvolution.Schema.Catalog

/-!
# Differences

Rows of two collections are matched by key. A row without a match on the left is created, one
without a match on the right is dropped, and a matched pair that differs is altered. The
difference of two catalogs has the differences of all kinds.
-/

namespace SchemaEvolution

/-- The rows that are created, dropped and altered between two collections. -/
structure Difference (α : Type) {φ : Type} (ν : φ → Type) where
  /-- Rows of the right side only, in its order. -/
  created : List α
  /-- Rows of the left side only, in its order. -/
  dropped : List α
  /-- Matched rows that differ, in the order of the right side. -/
  altered : List (Alteration α ν)

/-- Whether nothing is created, dropped or altered. -/
def Difference.isEmpty {α φ : Type} {ν : φ → Type} (d : Difference α ν) : Bool :=
  d.created.isEmpty && d.dropped.isEmpty && d.altered.isEmpty

/-- The difference from one collection to another one. -/
def Collection.difference {α φ : Type} {ν : φ → Type} [Row α] [Attributed α φ ν]
    (source target : Collection α) : Difference α ν where
  created := target.rows.filter fun row => !source.hasKey (Row.key row)
  dropped := source.rows.filter fun row => !target.hasKey (Row.key row)
  altered := target.rows.filterMap fun row =>
    (source.get? (Row.key row)).bind fun left => (Alteration.between left row).nonempty?

/-! ## Catalogs -/

abbrev TableDifference := Difference Table (fun _ : Empty => Empty)
abbrev ColumnAlteration := Alteration Column Column.Attribute.Value
abbrev PrimaryKeyAlteration := Alteration PrimaryKey PrimaryKey.Attribute.Value
abbrev ForeignKeyAlteration := Alteration ForeignKey ForeignKey.Attribute.Value
abbrev IndexAlteration := Alteration Index Index.Attribute.Value
abbrev CheckAlteration := Alteration Check Check.Attribute.Value
abbrev ViewAlteration := Alteration View View.Attribute.Value
abbrev ViewColumnAlteration := Alteration ViewColumn ViewColumn.Attribute.Value

structure CatalogDifference where
  tables : TableDifference
  columns : Difference Column Column.Attribute.Value
  primaryKeys : Difference PrimaryKey PrimaryKey.Attribute.Value
  foreignKeys : Difference ForeignKey ForeignKey.Attribute.Value
  indexes : Difference Index Index.Attribute.Value
  checks : Difference Check Check.Attribute.Value
  views : Difference View View.Attribute.Value
  viewColumns : Difference ViewColumn ViewColumn.Attribute.Value

/-- The altered rows of all kinds. Tables have no attributes, so none of them is altered. -/
structure Alterations where
  columns : List ColumnAlteration := []
  primaryKeys : List PrimaryKeyAlteration := []
  foreignKeys : List ForeignKeyAlteration := []
  indexes : List IndexAlteration := []
  checks : List CheckAlteration := []
  views : List ViewAlteration := []
  viewColumns : List ViewColumnAlteration := []

def Alterations.size (a : Alterations) : Nat :=
  a.columns.length + a.primaryKeys.length + a.foreignKeys.length + a.indexes.length +
    a.checks.length + a.views.length + a.viewColumns.length

def Catalog.difference (source target : Catalog) : CatalogDifference where
  tables := source.tables.difference target.tables
  columns := source.columns.difference target.columns
  primaryKeys := source.primaryKeys.difference target.primaryKeys
  foreignKeys := source.foreignKeys.difference target.foreignKeys
  indexes := source.indexes.difference target.indexes
  checks := source.checks.difference target.checks
  views := source.views.difference target.views
  viewColumns := source.viewColumns.difference target.viewColumns

namespace CatalogDifference

/-- Whether two catalogs do not differ. -/
def isEmpty (d : CatalogDifference) : Bool :=
  d.tables.isEmpty && d.columns.isEmpty && d.primaryKeys.isEmpty && d.foreignKeys.isEmpty &&
    d.indexes.isEmpty && d.checks.isEmpty && d.views.isEmpty && d.viewColumns.isEmpty

/-- The altered rows of all kinds. -/
def alterations (d : CatalogDifference) : Alterations where
  columns := d.columns.altered
  primaryKeys := d.primaryKeys.altered
  foreignKeys := d.foreignKeys.altered
  indexes := d.indexes.altered
  checks := d.checks.altered
  views := d.views.altered
  viewColumns := d.viewColumns.altered

end CatalogDifference

/-! ## Columns by table -/

/-- The columns of one table that are created and dropped. -/
structure ColumnGroup where
  table : String
  created : List Column
  dropped : List Column

/-- Groups columns by table, in the order of the table names. The columns of tables that are
themselves created or dropped are left out. -/
def ColumnGroup.ofColumns (created dropped : List Column)
    (createdTables droppedTables : List Table) :
    List ColumnGroup :=
  let created := created.filter fun c => !createdTables.any (·.name == c.table)
  let dropped := dropped.filter fun c => !droppedTables.any (·.name == c.table)
  let names := ((created ++ dropped).map (·.table)).eraseDups.mergeSort fun a b => a ≤ b
  names.map fun t => ⟨t, created.filter (·.table == t), dropped.filter (·.table == t)⟩

end SchemaEvolution
