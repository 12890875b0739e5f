import SchemaEvolution.Schema.Attribute

/-!
# Views and their columns
-/

namespace SchemaEvolution

/-- How the server evaluates a view. -/
inductive ViewAlgorithm where
  | undefined
  | merge
  | temptable
deriving DecidableEq, Repr

instance : Word ViewAlgorithm where
  all := [.undefined, .merge, .temptable]
  text
    | .undefined => "undefined"
    | .merge => "merge"
    | .temptable => "temptable"

/-- Whose rights apply when a view is read. -/
inductive SqlSecurity where
  | definer
  | invoker
deriving DecidableEq, Repr

instance : Word SqlSecurity where
  all := [.definer, .invoker]
  text
    | .definer => "definer"
    | .invoker => "invoker"

/-- Which conditions a row that is written through a view must meet. -/
inductive CheckOption where
  | local
  | cascaded
deriving DecidableEq, Repr

instance : Word CheckOption where
  all := [.local, .cascaded]
  text
    | .local => "local"
    | .cascaded => "cascaded"

/-- A view. Its definition is opaque text. -/
structure View where
  name : String
  definition : String
  algorithm : ViewAlgorithm := .undefined
  sqlSecurity : SqlSecurity := .definer
  withCheckOption : Option CheckOption := none
deriving DecidableEq, Repr

instance : Row View where
  fields := ["name", "definition", "algorithm", "sqlSecurity", "withCheckOption"]
  toMembers v := [("name", toJson v.name), ("definition", toJson v.definition),
    ("algorithm", toJson v.algorithm), ("sqlSecurity", toJson v.sqlSecurity),
    ("withCheckOption", toJson v.withCheckOption)]
  ofGiven? g := do
    return {
      name := ← g.required? "name"
      definition := ← g.required? "definition"
      algorithm := ← g.optional? "algorithm" .undefined
      sqlSecurity := ← g.optional? "sqlSecurity" .definer
      withCheckOption := ← g.optional? "withCheckOption" none }
  kind := .views
  key v := .single v.name
  describe v := "view " ++ named v.name
  faults path v := Fault.ofIdentifier path "name" v.name

/-- The fields of a view outside its key. -/
inductive View.Attribute where
  | definition
  | algorithm
  | sqlSecurity
  | withCheckOption
deriving DecidableEq, Repr

@[reducible] def View.Attribute.Value : View.Attribute → Type
  | .definition => String
  | .algorithm => ViewAlgorithm
  | .sqlSecurity => SqlSecurity
  | .withCheckOption => Option CheckOption

instance : Attributed View View.Attribute View.Attribute.Value where
  all := [.definition, .algorithm, .sqlSecurity, .withCheckOption]
  mem_all f := by cases f <;> decide
  name
    | .definition => "definition"
    | .algorithm => "algorithm"
    | .sqlSecurity => "sqlSecurity"
    | .withCheckOption => "withCheckOption"
  get
    | .definition, v => v.definition
    | .algorithm, v => v.algorithm
    | .sqlSecurity, v => v.sqlSecurity
    | .withCheckOption, v => v.withCheckOption
  set
    | .definition, x, v => { v with definition := x }
    | .algorithm, x, v => { v with algorithm := x }
    | .sqlSecurity, x, v => { v with sqlSecurity := x }
    | .withCheckOption, x, v => { v with withCheckOption := x }
  decEq f := by cases f <;> infer_instance
  form f := by cases f <;> infer_instance

structure ViewColumn where
  view : String
  name : String
  type : String
  notNull : Bool
deriving DecidableEq, Repr

instance : Row ViewColumn where
  fields := ["view", "name", "type", "notNull"]
  toMembers c := [("view", toJson c.view), ("name", toJson c.name), ("type", toJson c.type),
    ("notNull", toJson c.notNull)]
  ofGiven? g := do
    return {
      view := ← g.required? "view"
      name := ← g.required? "name"
      type := ← g.required? "type"
      notNull := ← g.required? "notNull" }
  kind := .viewColumns
  key c := .scoped c.view c.name
  describe c := "view column " ++ named (c.view ++ "." ++ c.name)
  faults path c := Fault.ofIdentifier path "view" c.view ++ Fault.ofIdentifier path "name" c.name

/-- The fields of a view column outside its key. -/
inductive ViewColumn.Attribute where
  | type
  | notNull
deriving DecidableEq, Repr

@[reducible] def ViewColumn.Attribute.Value : ViewColumn.Attribute → Type
  | .type => String
  | .notNull => Bool

instance : Attributed ViewColumn ViewColumn.Attribute ViewColumn.Attribute.Value where
  all := [.type, .notNull]
  mem_all f := by cases f <;> decide
  name
    | .type => "type"
    | .notNull => "notNull"
  get
    | .type, c => c.type
    | .notNull, c => c.notNull
  set
    | .type, x, c => { c with type := x }
    | .notNull, x, c => { c with notNull := x }
  decEq f := by cases f <;> infer_instance
  form f := by cases f <;> infer_instance

end SchemaEvolution
