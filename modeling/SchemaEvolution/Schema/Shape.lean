import SchemaEvolution.Schema.Entity

/-!
# The shape of rows in documents

Before rows are read from a document, their shape is examined field by field, so that everything
that is wrong is reported at once and with its place. `rowFaults` lists, for each kind, the
fields of a row and what each must hold.
-/

namespace SchemaEvolution.Shape

/-- An examination of the members of an object at a path. -/
abbrev Examination := String → Members → List Fault

/-- Several examinations, one after the other. -/
def all (es : List Examination) : Examination :=
  fun path ms => es.flatMap fun e => e path ms

/-- The fault of a field, unless its value passes. -/
def field (name expected : String) (passes : Option Json → Bool) : Examination :=
  fun path ms => if passes (ms.find? name) then [] else [⟨path ++ "." ++ name, expected⟩]

def string (name : String) : Examination :=
  field name "string" fun
    | some (.string _) => true
    | _ => false

/-- A field that holds a string or null, or is absent. -/
def optionalString (name : String) : Examination :=
  field name "string or null" fun
    | none | some .null | some (.string _) => true
    | _ => false

def boolean (name : String) : Examination :=
  field name "boolean" fun
    | some (.bool _) => true
    | _ => false

/-- A field that holds a Boolean or is absent. -/
def optionalBoolean (name : String) : Examination :=
  field name "boolean" fun
    | none | some (.bool _) => true
    | _ => false

/-- Whether a value is a word of a vocabulary. -/
def isWord (α : Type) [Word α] : Option Json → Bool
  | some (.string s) => (Word.ofText? (α := α) s).isSome
  | _ => false

def word (α : Type) [Word α] (name : String) : Examination :=
  field name (Word.listed α) (isWord α)

/-- A field that holds a word or null, or is absent. -/
def optionalWord (α : Type) [Word α] (name : String) : Examination :=
  field name (Word.listed α) fun
    | none | some .null => true
    | x => isWord α x

/-- Examines the items of a list, each at its own path. -/
def items (path : String) (examine : String → Json → List Fault) (xs : List Json) : List Fault :=
  xs.zipIdx.flatMap fun (x, i) => examine (Fault.rowPath path i) x

def strings (name : String) : Examination := fun path ms =>
  match ms.find? name with
  | some (.array xs) => items (path ++ "." ++ name) (fun path x =>
      match x with
      | .string _ => []
      | _ => [⟨path, "string"⟩]) xs
  | _ => [⟨path ++ "." ++ name, "array of strings"⟩]

/-- A field that holds a list of objects of one shape. -/
def objects (name : String) (shape : Examination) : Examination := fun path ms =>
  match ms.find? name with
  | some (.array xs) => items (path ++ "." ++ name) (fun path x =>
      match x with
      | .object ms => shape path ms
      | _ => [⟨path, "object"⟩]) xs
  | _ => [⟨path ++ "." ++ name, "array"⟩]

/-- A field that holds an object of a shape or null, or is absent. -/
def optionalObject (name : String) (shape : Examination) : Examination := fun path ms =>
  match ms.find? name with
  | none | some .null => []
  | some (.object ms) => shape (path ++ "." ++ name) ms
  | some _ => [⟨path ++ "." ++ name, "object or null"⟩]

/-- The shape of the rows of each kind. -/
def ofKind : Kind → Examination
  | .tables => string "name"
  | .columns => all [string "table", string "name", string "type", boolean "notNull",
      optionalBoolean "autoIncrement", optionalBoolean "onUpdateNow", optionalString "charSet",
      optionalString "collation",
      optionalObject "default" (all [string "value", word ValueKind "type"]),
      optionalObject "generated" (all [word Storage "type", string "as"])]
  | .primaryKeys => all [string "table", string "name", optionalBoolean "nameExplicit",
      strings "columns"]
  | .foreignKeys => all [string "table", string "name", optionalBoolean "nameExplicit",
      strings "columns", string "tableTo", strings "columnsTo",
      optionalWord ReferentialAction "onUpdate", optionalWord ReferentialAction "onDelete"]
  | .indexes => all [string "table", string "name", optionalBoolean "nameExplicit",
      boolean "isUnique", optionalWord IndexStructure "using",
      optionalWord BuildAlgorithm "algorithm", optionalWord BuildLock "lock",
      objects "columns" (all [string "value", boolean "isExpression"])]
  | .checks => all [string "table", string "name", optionalBoolean "nameExplicit", string "value"]
  | .views => all [string "name", string "definition", optionalWord ViewAlgorithm "algorithm",
      optionalWord SqlSecurity "sqlSecurity", optionalWord CheckOption "withCheckOption"]
  | .viewColumns => all [string "view", string "name", string "type", boolean "notNull"]

/-- The kind that the tag of a row names. -/
def kind? (ms : Members) : Option Kind :=
  match ms.find? Entity.tagField with
  | some (.string tag) => Word.ofText? tag
  | _ => none

/-- The faults in the shape of a row at a path. -/
def rowFaults (path : String) : Json → List Fault
  | .object ms =>
    match kind? ms with
    | some kind => ofKind kind path ms
    | none => [⟨path ++ "." ++ Entity.tagField, Word.listed Kind⟩]
  | _ => [⟨path, "object"⟩]

/-- The faults in the shapes of a list of rows. -/
def rowsFaults (path : String) (rows : List Json) : List Fault :=
  items path rowFaults rows

end SchemaEvolution.Shape
