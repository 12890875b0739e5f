import SchemaEvolution.Plan.Phase
import SchemaEvolution.Rename.Resolution

/-!
# Scheduling statements

From two catalogs, their difference, the alterations that are to be carried out and the renames
of the run, `PlanInput.statements` schedules the statements of each kind of row and puts them in
order. The source catalog is the one in which the renames have been carried through, so most
statements use the new names. Foreign keys are dropped before tables are renamed, so there the
table has its old name.

A primary key of one column that counts by itself rides on the clause of the column: it is
declared with the column and has no statement of its own.
-/

namespace SchemaEvolution

/-- What a plan is made from. -/
structure PlanInput where
  source : Catalog
  target : Catalog
  difference : CatalogDifference
  alterations : Alterations
  renames : Renames

/-! ## Keys on columns -/

/-- The column of a primary key that has only one. -/
def PrimaryKey.soleColumn? (k : PrimaryKey) : Option String :=
  match k.columns with
  | [c] => some c
  | _ => none

namespace Catalog

/-- Whether a primary key rides on the clause of its column. -/
def ridesOnColumn (c : Catalog) (k : PrimaryKey) : Bool :=
  k.soleColumn?.any fun name => (c.column? k.table name).any (·.autoIncrement)

/-- Whether a column alone is the primary key of its table. -/
def isSoleKey (c : Catalog) (column : Column) : Bool :=
  (c.primaryKeyOf? column.table).bind (·.soleColumn?) == some column.name

end Catalog

/-- Whether a change of how a column is generated needs the column to be made anew: the server
neither turns a computed column into a stored one nor the reverse. -/
def Generated.needsNewColumn (d : Delta (Option Generated)) : Bool :=
  let before := d.before.map (·.storage)
  let after := d.after.map (·.storage)
  before == some .computed || after == some .computed ||
    (before.isSome && after.isSome && before != after)

namespace PlanInput

variable (p : PlanInput)

def creates (table : String) : Bool :=
  p.difference.tables.created.any (·.name == table)

def drops (table : String) : Bool :=
  p.difference.tables.dropped.any (·.name == table)

/-- Whether foreign keys of created tables wait until all tables exist: if there are several. -/
def defersForeignKeys : Bool :=
  p.difference.tables.created.any fun t =>
    p.difference.tables.created.any fun u => t.name != u.name

/-- Whether the clause of a column declares the primary key. -/
def isKey (c : Column) : Bool :=
  p.target.isSoleKey c && c.autoIncrement

/-- Whether a column is and remains the primary key of its table. -/
def wasKey (c : Column) : Bool :=
  p.source.isSoleKey c && p.target.isSoleKey c

/-! ## Tables -/

/-- The definition of a created table. -/
def definition (table : String) : TableDefinition where
  name := table
  columns := p.target.columnsOf table
  primaryKey := p.target.primaryKeyOf? table
  foreignKeys :=
    if p.defersForeignKeys then [] else p.target.foreignKeys.rows.filter (·.table == table)
  uniques := p.target.indexes.rows.filter fun i => i.table == table && i.isUnique
  checks := p.target.checks.rows.filter (·.table == table)

def tableStatements : List Statement :=
  p.difference.tables.created.map (fun t => .createTable (p.definition t.name)) ++
    p.difference.tables.dropped.map (fun t => .dropTable t.name) ++
    p.renames.tables.map (fun r => .renameTable r.old.name r.new.name)

/-! ## Columns -/

/-- The statement of an altered column. -/
def alterColumn (a : ColumnAlteration) : Statement :=
  if (a.change .generated).any Generated.needsNewColumn then
    .recreateColumn a.right (p.isKey a.right)
  else .alterColumn a a.right (p.isKey a.right) (p.wasKey a.right)

def columnStatements : List Statement :=
  p.renames.columns.map (fun r => .renameColumn r.new.table r.old.name r.new.name) ++
    (p.difference.columns.created.filter fun c => !p.creates c.table).map
      (fun c => .addColumn c (p.isKey c)) ++
    (p.difference.columns.dropped.filter fun c => !p.drops c.table).map .dropColumn ++
    p.alterations.columns.map p.alterColumn

/-! ## Primary keys -/

/-- The statement that drops a foreign key, under the name that its table has before renames. -/
def dropForeignKey (k : ForeignKey) : Statement :=
  let table := match p.renames.tables.find? fun r => r.new.name == k.table with
    | some r => r.old.name
    | none => k.table
  .dropConstraint table k.name .foreignKey

/-- The foreign keys that refer to exactly the columns of a former primary key. -/
def referringTo (table : String) (columns : List String) : List ForeignKey :=
  p.source.foreignKeys.rows.filter fun k =>
    k.target == table && k.targetColumns.isPerm columns && !p.drops k.table

/-- Statements that drop the foreign keys on a former primary key and add those that remain. -/
def rebuild (a : PrimaryKeyAlteration) : List Statement :=
  match a.change .columns with
  | none => []
  | some d =>
    (p.referringTo a.left.table d.before).flatMap fun k =>
      p.dropForeignKey k ::
        ((p.target.foreignKeys.get? (.scoped k.table k.name)).map .createForeignKey).toList

/-- The statement that drops a primary key, unless it rides on its column. -/
def dropPrimaryKey? (k : PrimaryKey) : Option Statement :=
  if p.source.ridesOnColumn k then none else some (.dropPrimaryKey k)

/-- Whether a statement on a column is scheduled that can declare a key. -/
def coversColumn (table name : String) : Bool :=
  p.difference.columns.created.any (fun c => c.table == table && c.name == name) ||
    p.alterations.columns.any (fun a => a.right.table == table && a.right.name == name)

/-- The statement that declares a primary key: its own, or one on the column that it rides on if
there is none yet. -/
def createPrimaryKey? (k : PrimaryKey) : Option Statement :=
  if p.target.ridesOnColumn k then
    k.soleColumn?.bind fun name =>
      if p.coversColumn k.table name then none
      else
        match p.source.column? k.table name, p.target.column? k.table name with
        | some left, some right =>
          some (.alterColumn (.unchanged left right) right (p.isKey right) (p.wasKey right))
        | _, _ => none
  else some (.createPrimaryKey k)

def primaryKeyStatements : List Statement :=
  let altered := p.alterations.primaryKeys
  let dropped := (p.difference.primaryKeys.dropped.filter fun k => !p.drops k.table) ++
    altered.map (·.left)
  let created := (p.difference.primaryKeys.created.filter fun k => !p.creates k.table) ++
    altered.map (·.right)
  altered.flatMap p.rebuild ++ dropped.filterMap p.dropPrimaryKey? ++
    created.filterMap p.createPrimaryKey?

/-! ## Indexes, foreign keys and checks -/

/-- Statements on indexes. The unique indexes of a created table are declared with it. -/
def indexStatements : List Statement :=
  (p.difference.indexes.dropped.filter fun i => !p.drops i.table).map .dropIndex ++
    (p.difference.indexes.created.filter fun i => !(p.creates i.table && i.isUnique)).map
      .createIndex ++
    p.alterations.indexes.flatMap fun a => [.dropIndex a.left, .createIndex a.right]

/-- Statements on foreign keys. A dropped table takes its keys with it, unless they refer to
another dropped table, which may go first. -/
def foreignKeyStatements : List Statement :=
  (p.difference.foreignKeys.dropped.filter fun k =>
      !p.drops k.table || (k.target != k.table && p.drops k.target)).map p.dropForeignKey ++
    (p.difference.foreignKeys.created.filter fun k =>
      !p.creates k.table || p.defersForeignKeys).map .createForeignKey ++
    p.alterations.foreignKeys.flatMap fun a => [p.dropForeignKey a.left, .createForeignKey a.right]

def dropCheck (c : Check) : Statement :=
  .dropConstraint c.table c.name .check

def checkStatements : List Statement :=
  (p.difference.checks.dropped.filter fun c => !p.drops c.table).map dropCheck ++
    (p.difference.checks.created.filter fun c => !p.creates c.table).map .createCheck ++
    p.alterations.checks.flatMap fun a => [dropCheck a.left, .createCheck a.right]

/-! ## Views -/

/-- The statement of an altered view: a new definition replaces the view. -/
def alterView (a : ViewAlteration) : Statement :=
  if (a.change .definition).isSome then .createView a.right true else .alterView a.right

def viewStatements : List Statement :=
  p.difference.views.dropped.map (fun v => .dropView v.name) ++
    p.renames.views.map (fun r => .renameView r.old.name r.new.name) ++
    p.alterations.views.map alterView ++
    p.difference.views.created.map (.createView · false)

/-! ## The plan -/

/-- All scheduled statements, kind by kind. -/
def scheduled : List Statement :=
  p.tableStatements ++ p.columnStatements ++ p.primaryKeyStatements ++ p.indexStatements ++
    p.foreignKeyStatements ++ p.checkStatements ++ p.viewStatements

/-- The statements of the plan, in the order in which they are carried out. -/
def statements : List Statement :=
  Statement.ordered p.scheduled

end PlanInput

end SchemaEvolution
