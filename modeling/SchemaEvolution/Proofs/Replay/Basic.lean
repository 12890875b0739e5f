import SchemaEvolution.Plan.Statement
import SchemaEvolution.Proofs.Relabelling

/-!
# Replaying statements

What the statements of a migration do to a schema, row by row. `Catalog.perform?` carries out one
statement, `Catalog.replay?` a list of them.

**Statements that create or add** insert rows, and a created table brings everything that is
declared with it. **Statements that drop** remove the row that they address, and a dropped table
takes its columns, keys, indexes and checks with it. **Statements that alter or replace** put a row
in the place of the one under its key. **Renames** relabel every row that mentions the old name.

Replay is strict. It fails if a row that is to be dropped, altered or renamed is not there, and
if the key of a row that is to be inserted, or the new name in a rename, is taken.
-/

namespace SchemaEvolution

namespace Collection

variable {α : Type} [Row α]

/-- Inserts a row; fails if its key is taken. -/
def insertNew? (c : Collection α) (row : α) : Option (Collection α) :=
  if c.hasKey (Row.key row) then none else some (c.insert row)

def insertAllNew? (c : Collection α) (rows : List α) : Option (Collection α) :=
  rows.foldlM insertNew? c

/-- The rows that are not selected. -/
def without (c : Collection α) (selects : α → Bool) : Collection α :=
  (c.delete selects).1

/-- Removes the row under a key; fails if there is none. -/
def remove? (c : Collection α) (key : Key) : Option (Collection α) :=
  if c.hasKey key then some (c.without fun row => Row.key row = key) else none

/-- Puts a row in the place of the one under its key; fails if there is none. -/
def replace? (c : Collection α) (row : α) : Option (Collection α) :=
  if c.hasKey (Row.key row) then
    (c.update (fun _ => row) fun x => Row.key x = Row.key row).toOption.map (·.1)
  else none

/-- Puts a row in the place of another one, or after the others. -/
def place? (c : Collection α) (row : α) : Bool → Option (Collection α)
  | true => c.replace? row
  | false => c.insertNew? row

end Collection

namespace Part

variable {α : Type} [Row α]

/-- Changes one collection of a catalog. -/
def modify? (p : Part α) (f : Collection α → Option (Collection α)) (c : Catalog) :
    Option Catalog :=
  (f (p.get c)).map fun rows => p.set rows c

end Part

namespace Catalog

/-- Inserts a table with everything that its definition declares. -/
def createTable? (c : Catalog) (d : TableDefinition) : Option Catalog := do
  return { c with
    tables := ← c.tables.insertNew? ⟨d.name⟩
    columns := ← c.columns.insertAllNew? d.columns
    primaryKeys := ← c.primaryKeys.insertAllNew? d.primaryKey.toList
    foreignKeys := ← c.foreignKeys.insertAllNew? d.foreignKeys
    indexes := ← c.indexes.insertAllNew? d.uniques
    checks := ← c.checks.insertAllNew? d.checks }

/-- Removes a table with every row that belongs to it. -/
def dropTable? (c : Catalog) (table : String) : Option Catalog := do
  return { c with
    tables := ← c.tables.remove? (.single table)
    columns := c.columns.without (·.table == table)
    primaryKeys := c.primaryKeys.without (·.table == table)
    foreignKeys := c.foreignKeys.without (·.table == table)
    indexes := c.indexes.without (·.table == table)
    checks := c.checks.without (·.table == table) }

/-- Relabels the catalog if a key is there before, and another one is not. -/
def rename? {α : Type} [Row α] (c : Catalog) (rows : Collection α) (old new : Key)
    (ρ : Relabelling) : Option Catalog :=
  if rows.hasKey old && !rows.hasKey new then c.relabel? ρ else none

def perform? (c : Catalog) : Statement → Option Catalog
  | .createTable d => c.createTable? d
  | .dropTable t => c.dropTable? t
  | .renameTable old new => c.rename? c.tables (.single old) (.single new) (.ofTables [(old, new)])
  | .addColumn column _ => Part.columns.modify? (·.place? column false) c
  | .dropColumn column => Part.columns.modify? (·.remove? (Row.key column)) c
  | .renameColumn t old new =>
    c.rename? c.columns (.scoped t old) (.scoped t new) (.ofColumns t [(old, new)])
  | .alterColumn _ column _ _ => Part.columns.modify? (·.place? column true) c
  | .recreateColumn column _ => Part.columns.modify? (·.place? column true) c
  | .createIndex i => Part.indexes.modify? (·.place? i false) c
  | .dropIndex i => Part.indexes.modify? (·.remove? (Row.key i)) c
  | .createForeignKey k => Part.foreignKeys.modify? (·.place? k false) c
  | .dropConstraint t n .foreignKey => Part.foreignKeys.modify? (·.remove? (.scoped t n)) c
  | .dropConstraint t n .check => Part.checks.modify? (·.remove? (.scoped t n)) c
  | .createPrimaryKey k => Part.primaryKeys.modify? (·.place? k false) c
  | .dropPrimaryKey k => Part.primaryKeys.modify? (·.remove? (Row.key k)) c
  | .createCheck k => Part.checks.modify? (·.place? k false) c
  | .createView v replaces => Part.views.modify? (·.place? v replaces) c
  | .alterView v => Part.views.modify? (·.place? v true) c
  | .dropView n => Part.views.modify? (·.remove? (.single n)) c
  | .renameView old new => c.rename? c.views (.single old) (.single new) (.ofViews [(old, new)])

/-- Carries out statements one after the other. -/
def replay? (c : Catalog) (ss : List Statement) : Option Catalog :=
  ss.foldlM perform? c

end Catalog

end SchemaEvolution
