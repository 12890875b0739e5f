import SchemaEvolution.Rename.Resolution
import SchemaEvolution.Schema.Edit

/-!
# Carrying renames through a schema

Accepted renames are carried through the source catalog, so that what was renamed has the same
key on both sides. All renames of a kind apply at once: two tables may swap their names.

A foreign key or index without a name of its own is named after its table and columns, so a
rename changes the name it would have today, but not the name it has in the database. The target
catalog therefore takes over the old name where only the rename tells the two apart.
-/

namespace SchemaEvolution

/-- The catalogs on the two sides of a migration. -/
structure Sides where
  source : Catalog
  target : Catalog
deriving DecidableEq, Inhabited

/-- A change of both catalogs that may fail; what was done before a failure stays. -/
abbrev SidesEdit (β : Type) : Type :=
  ExceptT KeyClash (StateM Sides) β

namespace SidesEdit

def onSource {β : Type} (e : Edit β) : SidesEdit β := fun s =>
  let (result, source) := e.run s.source
  (result, { s with source })

def onTarget {β : Type} (e : Edit β) : SidesEdit β := fun s =>
  let (result, target) := e.run s.target
  (result, { s with target })

def run {β : Type} (e : SidesEdit β) (s : Sides) : Except KeyClash β × Sides :=
  ExceptT.run e s

end SidesEdit

namespace Propagate

/-! ## Names of constraints -/

/-- Gives the foreign key of the catalog that has a default name the name that the same key has
in the database. The row `k` comes from the source, after renames. -/
def keepForeignKeyName (k : ForeignKey) : Edit Unit := do
  let target ← get
  let default := k.defaultName
  if k.nameExplicit || default == k.name || target.foreignKeys.hasKey (.scoped k.table k.name) then
    return
  if (target.foreignKeys.get? (.scoped k.table default)).any fun t => !t.nameExplicit then
    let _ ← Edit.update .foreignKeys (fun t => { t with name := k.name })
      fun t => t.table == k.table && t.name == default

/-- Gives the index of the catalog that has a default name the name that the same index has in
the database. The row `i` comes from the source, after renames. -/
def keepIndexName (i : Index) : Edit Unit := do
  match i.defaultName? with
  | none => return
  | some default =>
    let target ← get
    if i.nameExplicit || default == i.name || target.indexes.hasKey (.scoped i.table i.name) then
      return
    if (target.indexes.get? (.scoped i.table default)).any fun t => !t.nameExplicit then
      let _ ← Edit.update .indexes (fun t => { t with name := i.name })
        fun t => t.table == i.table && t.name == default

/-- Keeps the names of the given foreign keys and indexes. -/
def keepNames (foreignKeys : List ForeignKey) (indexes : List Index) : Edit Unit := do
  foreignKeys.forM keepForeignKeyName
  indexes.forM keepIndexName

/-! ## Tables -/

def tableNames (renames : List (Renaming Table)) : NameMap :=
  renames.map fun r => (r.old.name, r.new.name)

/-- Carries renames of tables through both catalogs. -/
def renameTables (renames : List (Renaming Table)) : SidesEdit Unit := do
  let m := tableNames renames
  let touched ← SidesEdit.onSource do
    let _ ← Edit.update .tables (fun t => { t with name := m.apply t.name })
      fun t => m.renames t.name
    Catalog.retarget m
  SidesEdit.onTarget (keepNames touched.foreignKeys touched.indexes)

/-! ## Columns -/

/-- Adds rows to a list; a row whose key is in the list replaces the one that is there. -/
def mergeRows {α : Type} [Row α] (rows : List α) : List α → List α
  | [] => rows
  | r :: rs =>
    if rows.any fun x => Row.key x == Row.key r then
      mergeRows (rows.map fun x => if Row.key x == Row.key r then r else x) rs
    else mergeRows (rows ++ [r]) rs

/-- Renames the columns of a table wherever a row lists them. Expressions are opaque and stay. -/
def relabelColumns (table : String) (m : NameMap) : Edit Catalog.Retargeted := do
  let touches (names : List String) : Bool := names.any m.renames
  let _ ← Edit.update .columns (fun c => { c with name := m.apply c.name })
    fun c => c.table == table && m.renames c.name
  let indexes ← Edit.update .indexes
    (fun i => { i with parts := i.parts.map (·.mapColumn m.apply) }) fun i => i.table == table
  let _ ← Edit.update .primaryKeys (fun k => { k with columns := k.columns.map m.apply })
    fun k => k.table == table && touches k.columns
  let owned ← Edit.update .foreignKeys (fun k => { k with columns := k.columns.map m.apply })
    fun k => k.table == table && touches k.columns
  let referring ← Edit.update .foreignKeys
    (fun k => { k with targetColumns := k.targetColumns.map m.apply })
    fun k => k.target == table && touches k.targetColumns
  return { foreignKeys := mergeRows owned referring, indexes }

/-- The tables whose columns are renamed, in the order of their names, with the new names. -/
def columnNames (renames : List (Renaming Column)) : List (String × NameMap) :=
  let tables := (renames.map (·.old.table)).eraseDups.mergeSort fun a b => a ≤ b
  tables.map fun t =>
    (t, (renames.filter (·.old.table == t)).map fun r => (r.old.name, r.new.name))

/-- Carries renames of columns through both catalogs, table by table. -/
def renameColumns (renames : List (Renaming Column)) : SidesEdit Unit :=
  (columnNames renames).forM fun (table, m) => do
    let touched ← SidesEdit.onSource (relabelColumns table m)
    SidesEdit.onTarget (keepNames touched.foreignKeys touched.indexes)

/-! ## Views -/

def viewNames (renames : List (Renaming View)) : NameMap :=
  renames.map fun r => (r.old.name, r.new.name)

/-- Carries renames of views through the source catalog. -/
def renameViews (renames : List (Renaming View)) : SidesEdit Unit :=
  let m := viewNames renames
  SidesEdit.onSource do
    let _ ← Edit.update .views (fun v => { v with name := m.apply v.name })
      fun v => m.renames v.name
    let _ ← Edit.update .viewColumns (fun c => { c with view := m.apply c.view })
      fun c => m.renames c.view

end Propagate

end SchemaEvolution
