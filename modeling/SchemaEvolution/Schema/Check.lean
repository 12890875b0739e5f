import SchemaEvolution.Schema.Attribute

/-!
# Check constraints
-/

namespace SchemaEvolution

/-- A check constraint of a table. Its condition is opaque text. -/
structure Check where
  table : String
  name : String
  nameExplicit : Bool := false
  value : String
deriving DecidableEq, Repr

instance : Row Check where
  fields := ["table", "name", "nameExplicit", "value"]
  toMembers c := [("table", toJson c.table), ("name", toJson c.name),
    ("nameExplicit", toJson c.nameExplicit), ("value", toJson c.value)]
  ofGiven? g := do
    return {
      table := ← g.required? "table"
      name := ← g.required? "name"
      nameExplicit := ← g.optional? "nameExplicit" false
      value := ← g.required? "value" }
  kind := .checks
  key c := .scoped c.table c.name
  describe c := "check " ++ named c.name ++ " on " ++ named c.table
  faults path c := Fault.ofIdentifier path "table" c.table ++
    Fault.ofIdentifier path "name" c.name ++ Fault.ofIdentifier path "value" c.value

/-- The fields of a check constraint outside its key. -/
inductive Check.Attribute where
  | nameExplicit
  | value
deriving DecidableEq, Repr

@[reducible] def Check.Attribute.Value : Check.Attribute → Type
  | .nameExplicit => Bool
  | .value => String

instance : Attributed Check Check.Attribute Check.Attribute.Value where
  all := [.nameExplicit, .value]
  mem_all f := by cases f <;> decide
  name
    | .nameExplicit => "nameExplicit"
    | .value => "value"
  get
    | .nameExplicit, c => c.nameExplicit
    | .value, c => c.value
  set
    | .nameExplicit, x, c => { c with nameExplicit := x }
    | .value, x, c => { c with value := x }
  decEq f := by cases f <;> infer_instance
  form f := by cases f <;> infer_instance

end SchemaEvolution
