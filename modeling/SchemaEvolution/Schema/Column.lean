import SchemaEvolution.Schema.Attribute

/-!
# Columns of tables
-/

namespace SchemaEvolution

/-- How a default value is to be written. -/
inductive ValueKind where
  | string
  | number
  | boolean
  | bigint
  | json
  | text
  /-- An expression, or a literal whose sort is not known. -/
  | unknown
deriving DecidableEq, Repr

instance : Word ValueKind where
  all := [.string, .number, .boolean, .bigint, .json, .text, .unknown]
  text
    | .string => "string"
    | .number => "number"
    | .boolean => "boolean"
    | .bigint => "bigint"
    | .json => "json"
    | .text => "text"
    | .unknown => "unknown"

structure DefaultValue where
  value : String
  kind : ValueKind
deriving DecidableEq, Repr

instance : Record DefaultValue where
  fields := ["value", "type"]
  toMembers d := [("value", toJson d.value), ("type", toJson d.kind)]
  ofGiven? g := do return { value := ← g.required? "value", kind := ← g.required? "type" }

/-- Whether a generated column is stored or computed when it is read. -/
inductive Storage where
  | stored
  | computed
deriving DecidableEq, Repr

instance : Word Storage where
  all := [.stored, .computed]
  text
    | .stored => "stored"
    | .computed => "virtual"

/-- How a generated column is computed. -/
structure Generated where
  storage : Storage
  expression : String
deriving DecidableEq, Repr

instance : Record Generated where
  fields := ["type", "as"]
  toMembers g := [("type", toJson g.storage), ("as", toJson g.expression)]
  ofGiven? g := do return { storage := ← g.required? "type", expression := ← g.required? "as" }

structure Column where
  table : String
  name : String
  type : String
  notNull : Bool := false
  defaultValue : Option DefaultValue := none
  autoIncrement : Bool := false
  onUpdateNow : Bool := false
  charSet : Option String := none
  collation : Option String := none
  generated : Option Generated := none
deriving DecidableEq, Repr

instance : Row Column where
  fields := ["table", "name", "type", "notNull", "default", "autoIncrement", "onUpdateNow",
    "charSet", "collation", "generated"]
  toMembers c := [("table", toJson c.table), ("name", toJson c.name), ("type", toJson c.type),
    ("notNull", toJson c.notNull), ("default", toJson c.defaultValue),
    ("autoIncrement", toJson c.autoIncrement), ("onUpdateNow", toJson c.onUpdateNow),
    ("charSet", toJson c.charSet), ("collation", toJson c.collation),
    ("generated", toJson c.generated)]
  ofGiven? g := do
    return {
      table := ← g.required? "table"
      name := ← g.required? "name"
      type := ← g.required? "type"
      notNull := ← g.required? "notNull"
      defaultValue := ← g.optional? "default" none
      autoIncrement := ← g.optional? "autoIncrement" false
      onUpdateNow := ← g.optional? "onUpdateNow" false
      charSet := ← g.optional? "charSet" none
      collation := ← g.optional? "collation" none
      generated := ← g.optional? "generated" none }
  kind := .columns
  key c := .scoped c.table c.name
  describe c := "column " ++ named (c.table ++ "." ++ c.name)
  faults path c := Fault.ofIdentifier path "table" c.table ++
    Fault.ofIdentifier path "name" c.name ++ Fault.ofIdentifier path "type" c.type

/-- The fields of a column outside its key. -/
inductive Column.Attribute where
  | type
  | notNull
  | default
  | autoIncrement
  | onUpdateNow
  | charSet
  | collation
  | generated
deriving DecidableEq, Repr

@[reducible] def Column.Attribute.Value : Column.Attribute → Type
  | .type => String
  | .notNull => Bool
  | .default => Option DefaultValue
  | .autoIncrement => Bool
  | .onUpdateNow => Bool
  | .charSet => Option String
  | .collation => Option String
  | .generated => Option Generated

instance : Attributed Column Column.Attribute Column.Attribute.Value where
  all := [.type, .notNull, .default, .autoIncrement, .onUpdateNow, .charSet, .collation, .generated]
  mem_all f := by cases f <;> decide
  name
    | .type => "type"
    | .notNull => "notNull"
    | .default => "default"
    | .autoIncrement => "autoIncrement"
    | .onUpdateNow => "onUpdateNow"
    | .charSet => "charSet"
    | .collation => "collation"
    | .generated => "generated"
  get
    | .type, c => c.type
    | .notNull, c => c.notNull
    | .default, c => c.defaultValue
    | .autoIncrement, c => c.autoIncrement
    | .onUpdateNow, c => c.onUpdateNow
    | .charSet, c => c.charSet
    | .collation, c => c.collation
    | .generated, c => c.generated
  set
    | .type, x, c => { c with type := x }
    | .notNull, x, c => { c with notNull := x }
    | .default, x, c => { c with defaultValue := x }
    | .autoIncrement, x, c => { c with autoIncrement := x }
    | .onUpdateNow, x, c => { c with onUpdateNow := x }
    | .charSet, x, c => { c with charSet := x }
    | .collation, x, c => { c with collation := x }
    | .generated, x, c => { c with generated := x }
  decEq f := by cases f <;> infer_instance
  form f := by cases f <;> infer_instance

end SchemaEvolution
