import SchemaEvolution.Schema.Attribute

/-!
# Foreign keys
-/

namespace SchemaEvolution

/-- What happens to a row when the row that it refers to changes or goes. -/
inductive ReferentialAction where
  | noAction
  | restrict
  | cascade
  | setNull
  | setDefault
deriving DecidableEq, Repr

instance : Word ReferentialAction where
  all := [.noAction, .restrict, .cascade, .setNull, .setDefault]
  text
    | .noAction => "NO ACTION"
    | .restrict => "RESTRICT"
    | .cascade => "CASCADE"
    | .setNull => "SET NULL"
    | .setDefault => "SET DEFAULT"

/-- A foreign key: columns of a table refer to columns of a target table. -/
structure ForeignKey where
  table : String
  name : String
  nameExplicit : Bool := false
  columns : List String
  target : String
  targetColumns : List String
  onUpdate : ReferentialAction := .noAction
  onDelete : ReferentialAction := .noAction
deriving DecidableEq, Repr

namespace ForeignKey

/-- The name of a foreign key that is not named explicitly. -/
def defaultName (k : ForeignKey) : String :=
  k.table ++ "_" ++ "_".intercalate k.columns ++ "_" ++ k.target ++ "_" ++
    "_".intercalate k.targetColumns ++ "_fk"

/-- A foreign key with its default name and no actions. -/
def implicit (table : String) (columns : List String) (target : String)
    (targetColumns : List String) : ForeignKey :=
  let k : ForeignKey := { table, name := "", columns, target, targetColumns }
  { k with name := k.defaultName }

def withName (k : ForeignKey) (name : String) : ForeignKey :=
  { k with name, nameExplicit := true }

/-- Whether the key refers to its own table. -/
def isSelfReference (k : ForeignKey) : Bool :=
  k.table == k.target

end ForeignKey

instance : Row ForeignKey where
  fields := ["table", "name", "nameExplicit", "columns", "tableTo", "columnsTo", "onUpdate",
    "onDelete"]
  toMembers k := [("table", toJson k.table), ("name", toJson k.name),
    ("nameExplicit", toJson k.nameExplicit), ("columns", toJson k.columns),
    ("tableTo", toJson k.target), ("columnsTo", toJson k.targetColumns),
    ("onUpdate", toJson k.onUpdate), ("onDelete", toJson k.onDelete)]
  ofGiven? g := do
    return {
      table := ← g.required? "table"
      name := ← g.required? "name"
      nameExplicit := ← g.optional? "nameExplicit" false
      columns := ← g.required? "columns"
      target := ← g.required? "tableTo"
      targetColumns := ← g.required? "columnsTo"
      onUpdate := ← g.optional? "onUpdate" .noAction
      onDelete := ← g.optional? "onDelete" .noAction }
  kind := .foreignKeys
  key k := .scoped k.table k.name
  describe k := "foreign key " ++ named k.name ++ " on " ++ named k.table
  faults path k := Fault.ofIdentifier path "table" k.table ++
    Fault.ofIdentifier path "name" k.name ++ Fault.ofIdentifier path "tableTo" k.target ++
    Fault.ofColumns path "columns" k.columns ++ Fault.ofColumns path "columnsTo" k.targetColumns ++
    if k.columns.length = k.targetColumns.length then []
    else [⟨path ++ ".columnsTo", toString k.columns.length ++ " referenced column(s)"⟩]

/-- The fields of a foreign key outside its key. -/
inductive ForeignKey.Attribute where
  | nameExplicit
  | columns
  | target
  | targetColumns
  | onUpdate
  | onDelete
deriving DecidableEq, Repr

@[reducible] def ForeignKey.Attribute.Value : ForeignKey.Attribute → Type
  | .nameExplicit => Bool
  | .columns => List String
  | .target => String
  | .targetColumns => List String
  | .onUpdate => ReferentialAction
  | .onDelete => ReferentialAction

instance : Attributed ForeignKey ForeignKey.Attribute ForeignKey.Attribute.Value where
  all := [.nameExplicit, .columns, .target, .targetColumns, .onUpdate, .onDelete]
  mem_all f := by cases f <;> decide
  name
    | .nameExplicit => "nameExplicit"
    | .columns => "columns"
    | .target => "tableTo"
    | .targetColumns => "columnsTo"
    | .onUpdate => "onUpdate"
    | .onDelete => "onDelete"
  get
    | .nameExplicit, k => k.nameExplicit
    | .columns, k => k.columns
    | .target, k => k.target
    | .targetColumns, k => k.targetColumns
    | .onUpdate, k => k.onUpdate
    | .onDelete, k => k.onDelete
  set
    | .nameExplicit, x, k => { k with nameExplicit := x }
    | .columns, x, k => { k with columns := x }
    | .target, x, k => { k with target := x }
    | .targetColumns, x, k => { k with targetColumns := x }
    | .onUpdate, x, k => { k with onUpdate := x }
    | .onDelete, x, k => { k with onDelete := x }
  decEq f := by cases f <;> infer_instance
  form f := by cases f <;> infer_instance

end SchemaEvolution
