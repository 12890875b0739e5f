import SchemaEvolution.Schema.Attribute

/-!
# Indexes
-/

namespace SchemaEvolution

/-- A part of an index: a column, or an expression, which is opaque text. -/
inductive IndexPart where
  | column (name : String)
  | expression (sql : String)
deriving DecidableEq, Repr

namespace IndexPart

/-- The name of the column or the text of the expression. -/
def value : IndexPart → String
  | .column name => name
  | .expression sql => sql

def isExpression : IndexPart → Bool
  | .column _ => false
  | .expression _ => true

/-- The part with its column name mapped; an expression stays as it is. -/
def mapColumn (f : String → String) : IndexPart → IndexPart
  | .column name => .column (f name)
  | .expression sql => .expression sql

end IndexPart

instance : Record IndexPart where
  fields := ["value", "isExpression"]
  toMembers p := [("value", toJson p.value), ("isExpression", toJson p.isExpression)]
  ofGiven? g := do
    let value ← g.required? "value"
    let isExpression : Bool ← g.required? "isExpression"
    return if isExpression then .expression value else .column value

/-- The data structure of an index. -/
inductive IndexStructure where
  | btree
  | hash
deriving DecidableEq, Repr

instance : Word IndexStructure where
  all := [.btree, .hash]
  text
    | .btree => "btree"
    | .hash => "hash"

/-- How the server builds an index. -/
inductive BuildAlgorithm where
  | default
  | inplace
  | copy
deriving DecidableEq, Repr

instance : Word BuildAlgorithm where
  all := [.default, .inplace, .copy]
  text
    | .default => "default"
    | .inplace => "inplace"
    | .copy => "copy"

/-- How the server locks the table while it builds an index. -/
inductive BuildLock where
  | default
  | none
  | shared
  | exclusive
deriving DecidableEq, Repr

instance : Word BuildLock where
  all := [.default, .none, .shared, .exclusive]
  text
    | .default => "default"
    | .none => "none"
    | .shared => "shared"
    | .exclusive => "exclusive"

/-- An index of a table. -/
structure Index where
  table : String
  name : String
  nameExplicit : Bool := false
  parts : List IndexPart
  isUnique : Bool
  dataStructure : Option IndexStructure := none
  algorithm : Option BuildAlgorithm := none
  lock : Option BuildLock := none
deriving DecidableEq, Repr

namespace Index

/-- The name of a unique index over columns that is not named explicitly. -/
def defaultUniqueName (table : String) (columns : List String) : String :=
  table ++ "_" ++ "_".intercalate columns ++ "_unique"

/-- The name of an index that is not named explicitly. An index with an expression has none. -/
def defaultName? (i : Index) : Option String :=
  if i.parts.any IndexPart.isExpression then none
  else
    let columns := i.parts.map IndexPart.value
    some (if i.isUnique then defaultUniqueName i.table columns
      else i.table ++ "_" ++ "_".intercalate columns ++ "_index")

/-- An index with its default name, or with the empty name if it has none. -/
def implicit (table : String) (parts : List IndexPart) (isUnique : Bool) : Index :=
  let i : Index := { table, name := "", parts, isUnique }
  { i with name := i.defaultName?.getD "" }

def withName (i : Index) (name : String) : Index :=
  { i with name, nameExplicit := true }

end Index

instance : Row Index where
  fields := ["table", "name", "nameExplicit", "columns", "isUnique", "using", "algorithm", "lock"]
  toMembers i := [("table", toJson i.table), ("name", toJson i.name),
    ("nameExplicit", toJson i.nameExplicit), ("columns", toJson i.parts),
    ("isUnique", toJson i.isUnique), ("using", toJson i.dataStructure),
    ("algorithm", toJson i.algorithm), ("lock", toJson i.lock)]
  ofGiven? g := do
    return {
      table := ← g.required? "table"
      name := ← g.required? "name"
      nameExplicit := ← g.optional? "nameExplicit" false
      parts := ← g.required? "columns"
      isUnique := ← g.required? "isUnique"
      dataStructure := ← g.optional? "using" none
      algorithm := ← g.optional? "algorithm" none
      lock := ← g.optional? "lock" none }
  kind := .indexes
  key i := .scoped i.table i.name
  describe i := "index " ++ named i.name ++ " on " ++ named i.table
  faults path i := Fault.ofIdentifier path "table" i.table ++
    Fault.ofIdentifier path "name" i.name ++ Fault.ofColumns path "columns" i.parts

/-- The fields of an index outside its key. -/
inductive Index.Attribute where
  | nameExplicit
  | parts
  | isUnique
  | dataStructure
  | algorithm
  | lock
deriving DecidableEq, Repr

@[reducible] def Index.Attribute.Value : Index.Attribute → Type
  | .nameExplicit => Bool
  | .parts => List IndexPart
  | .isUnique => Bool
  | .dataStructure => Option IndexStructure
  | .algorithm => Option BuildAlgorithm
  | .lock => Option BuildLock

instance : Attributed Index Index.Attribute Index.Attribute.Value where
  all := [.nameExplicit, .parts, .isUnique, .dataStructure, .algorithm, .lock]
  mem_all f := by cases f <;> decide
  name
    | .nameExplicit => "nameExplicit"
    | .parts => "columns"
    | .isUnique => "isUnique"
    | .dataStructure => "using"
    | .algorithm => "algorithm"
    | .lock => "lock"
  get
    | .nameExplicit, i => i.nameExplicit
    | .parts, i => i.parts
    | .isUnique, i => i.isUnique
    | .dataStructure, i => i.dataStructure
    | .algorithm, i => i.algorithm
    | .lock, i => i.lock
  set
    | .nameExplicit, x, i => { i with nameExplicit := x }
    | .parts, x, i => { i with parts := x }
    | .isUnique, x, i => { i with isUnique := x }
    | .dataStructure, x, i => { i with dataStructure := x }
    | .algorithm, x, i => { i with algorithm := x }
    | .lock, x, i => { i with lock := x }
  decEq f := by cases f <;> infer_instance
  form f := by cases f <;> infer_instance

end SchemaEvolution
