import SchemaEvolution.Schema.Attribute

/-!
# Primary keys
-/

namespace SchemaEvolution

/-- The primary key of a table, which has at most one. -/
structure PrimaryKey where
  table : String
  name : String
  nameExplicit : Bool := false
  columns : List String
deriving DecidableEq, Repr

namespace PrimaryKey

/-- The name of a primary key that is not named explicitly. -/
def defaultName (table : String) (columns : List String) : String :=
  table ++ "_" ++ "_".intercalate columns ++ "_pk"

/-- A primary key with its default name. -/
def implicit (table : String) (columns : List String) : PrimaryKey :=
  { table, name := defaultName table columns, columns }

def withName (k : PrimaryKey) (name : String) : PrimaryKey :=
  { k with name, nameExplicit := true }

end PrimaryKey

instance : Row PrimaryKey where
  fields := ["table", "name", "nameExplicit", "columns"]
  toMembers k := [("table", toJson k.table), ("name", toJson k.name),
    ("nameExplicit", toJson k.nameExplicit), ("columns", toJson k.columns)]
  ofGiven? g := do
    return {
      table := ← g.required? "table"
      name := ← g.required? "name"
      nameExplicit := ← g.optional? "nameExplicit" false
      columns := ← g.required? "columns" }
  kind := .primaryKeys
  key k := .single k.table
  describe k := "primary key " ++ named k.name ++ " on " ++ named k.table
  faults path k := Fault.ofIdentifier path "table" k.table ++
    Fault.ofIdentifier path "name" k.name ++ Fault.ofColumns path "columns" k.columns

/-- The fields of a primary key outside its key. -/
inductive PrimaryKey.Attribute where
  | name
  | nameExplicit
  | columns
deriving DecidableEq, Repr

@[reducible] def PrimaryKey.Attribute.Value : PrimaryKey.Attribute → Type
  | .name => String
  | .nameExplicit => Bool
  | .columns => List String

instance : Attributed PrimaryKey PrimaryKey.Attribute PrimaryKey.Attribute.Value where
  all := [.name, .nameExplicit, .columns]
  mem_all f := by cases f <;> decide
  name
    | .name => "name"
    | .nameExplicit => "nameExplicit"
    | .columns => "columns"
  get
    | .name, k => k.name
    | .nameExplicit, k => k.nameExplicit
    | .columns, k => k.columns
  set
    | .name, x, k => { k with name := x }
    | .nameExplicit, x, k => { k with nameExplicit := x }
    | .columns, x, k => { k with columns := x }
  decEq f := by cases f <;> infer_instance
  form f := by cases f <;> infer_instance

end SchemaEvolution
