import SchemaEvolution.Schema.Catalog

/-!
# Editing catalogs

An edit updates the collections of a catalog one after the other. It stops at the first update
that fails; the catalog keeps what was done before. `retarget` follows tables to new names: every
row that belongs to a table, and every foreign key that refers to one.
-/

namespace SchemaEvolution

/-- The collection of one kind in a catalog. -/
structure Part (α : Type) [Row α] where
  get : Catalog → Collection α
  set : Collection α → Catalog → Catalog

namespace Part

def tables : Part Table := ⟨(·.tables), fun rows c => { c with tables := rows }⟩

def columns : Part Column := ⟨(·.columns), fun rows c => { c with columns := rows }⟩

def primaryKeys : Part PrimaryKey := ⟨(·.primaryKeys), fun rows c => { c with primaryKeys := rows }⟩

def foreignKeys : Part ForeignKey := ⟨(·.foreignKeys), fun rows c => { c with foreignKeys := rows }⟩

def indexes : Part Index := ⟨(·.indexes), fun rows c => { c with indexes := rows }⟩

def checks : Part Check := ⟨(·.checks), fun rows c => { c with checks := rows }⟩

def views : Part View := ⟨(·.views), fun rows c => { c with views := rows }⟩

def viewColumns : Part ViewColumn := ⟨(·.viewColumns), fun rows c => { c with viewColumns := rows }⟩

end Part

/-- A change of a catalog that may fail; what was done before a failure stays. -/
abbrev Edit (β : Type) : Type :=
  ExceptT KeyClash (StateM Catalog) β

namespace Edit

variable {α : Type} [Row α]

/-- Updates the selected rows of a collection, and lists their new forms. -/
def update (part : Part α) (change : α → α) (selects : α → Bool) : Edit (List α) :=
  fun c =>
    match (part.get c).update change selects with
    | .ok (rows, updated) => (.ok updated, part.set rows c)
    | .error key => (.error (.update (Row.kind α) key), c)

def run {β : Type} (e : Edit β) (c : Catalog) : Except KeyClash β × Catalog :=
  ExceptT.run e c

end Edit

/-! ## New names -/

/-- New names for old ones, all given at once. Of two new names for one old name the later one
counts. -/
abbrev NameMap := List (String × String)

namespace NameMap

/-- Whether a name gets a new one. -/
def renames (m : NameMap) (name : String) : Bool :=
  m.any fun p => p.1 == name

/-- The new name for a name; a name that gets none stays. -/
def apply (m : NameMap) (name : String) : String :=
  (m.reverse.lookup name).getD name

end NameMap

namespace Catalog

/-- The rows with names of their own that have followed a renamed table. -/
structure Retargeted where
  foreignKeys : List ForeignKey := []
  indexes : List Index := []

/-- Lets what belongs to tables follow them to new names. -/
def retarget (m : NameMap) : Edit Retargeted := do
  if m.isEmpty then return {}
  let _ ← Edit.update .columns (fun c => { c with table := m.apply c.table })
    fun c => m.renames c.table
  let _ ← Edit.update .primaryKeys (fun k => { k with table := m.apply k.table })
    fun k => m.renames k.table
  let indexes ← Edit.update .indexes (fun i => { i with table := m.apply i.table })
    fun i => m.renames i.table
  let _ ← Edit.update .checks (fun c => { c with table := m.apply c.table })
    fun c => m.renames c.table
  let foreignKeys ← Edit.update .foreignKeys
    (fun k => { k with table := m.apply k.table, target := m.apply k.target })
    fun k => m.renames k.table || m.renames k.target
  return { foreignKeys, indexes }

end Catalog

end SchemaEvolution
