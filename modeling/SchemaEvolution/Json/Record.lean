import SchemaEvolution.Json.Basic

/-!
# Values as documents

`JsonForm` gives the values of a type as documents: how one is written and which documents are
read. A record (`Record`) is written as the object of its fields. It is read from an object in
which no field stands twice and other members are ignored, or from the array of its fields in
order, from which fields with a default may be missing at the end. A word of a fixed vocabulary
(`Word`) is a string.

**Two readings.** A document is read as it stands, or after it was gathered: to find the tag of a
tagged record, or to tell the fields of a flattened one apart, all members are gathered first. A
gathered document is read in the same way but for one thing, the object form of a word.
-/

namespace SchemaEvolution

/-- How a document is read. -/
inductive Reading where
  /-- As it stands. -/
  | direct
  /-- After all members of the record that it is part of were gathered. -/
  | gathered
deriving DecidableEq, Repr

/-- Values that are written to documents and read from them. -/
class JsonForm (α : Type) where
  toJson : α → Json
  read? : Reading → Json → Option α
  /-- The value that a field has when it is absent from an object. -/
  absent? : Option α := none

export JsonForm (toJson)

/-- The value of a document as it stands. -/
def ofJson? {α : Type} [JsonForm α] (x : Json) : Option α :=
  JsonForm.read? .direct x

instance : JsonForm String where
  toJson := .string
  read?
    | _, .string s => some s
    | _, _ => none

instance : JsonForm Bool where
  toJson := .bool
  read?
    | _, .bool b => some b
    | _, _ => none

instance : JsonForm Nat where
  toJson n := .number (.ofNat n)
  read?
    | _, .number n =>
      match n.value? with
      | some (.integer (.ofNat k)) => some k
      | _ => none
    | _, _ => none

instance {α : Type} [JsonForm α] : JsonForm (List α) where
  toJson xs := .array (xs.map toJson)
  read?
    | reading, .array xs => xs.mapM (JsonForm.read? reading)
    | _, _ => none

instance {α : Type} [JsonForm α] : JsonForm (Option α) where
  toJson x := x.elim .null toJson
  read?
    | _, .null => some none
    | reading, x => (JsonForm.read? reading x).map some
  absent? := some none

/-! ## Words -/

/-- A type whose values are the words of a vocabulary. -/
class Word (α : Type) where
  all : List α
  text : α → String

namespace Word

variable {α : Type} [Word α]

/-- The value that a word stands for. -/
def ofText? (s : String) : Option α :=
  (all (α := α)).find? fun x => text x == s

/-- The vocabulary, as it is listed in messages. -/
def listed (α : Type) [Word α] : String :=
  "one of " ++ "|".intercalate ((all (α := α)).map text)

end Word

/-- A word is read from its string, or from the object of that one key with the value null; a
gathered one also with the empty object as value. -/
instance (priority := low) {α : Type} [Word α] : JsonForm α where
  toJson x := .string (Word.text x)
  read?
    | _, .string s => Word.ofText? s
    | _, .object [(s, .null)] => Word.ofText? s
    | .gathered, .object [(s, .object [])] => Word.ofText? s
    | _, _ => none

/-! ## Records -/

/-- The members of a record, by name. -/
abbrev Members := List (String × Json)

/-- The member of a field, or nothing. -/
def Members.find? (ms : Members) (field : String) : Option Json :=
  ms.lookup field

/-- What a document gives for the fields of a record. -/
structure Given where
  reading : Reading
  members : Members
  /-- Whether the fields are told apart by their places in an array. -/
  positional : Bool

namespace Given

/-- A field without a default. An object need not have it if its type has a value for when it is
absent. -/
def required? {α : Type} [JsonForm α] (g : Given) (field : String) : Option α :=
  match g.members.find? field with
  | none => if g.positional then none else JsonForm.absent?
  | some x => JsonForm.read? g.reading x

/-- A field with a default. -/
def optional? {α : Type} [JsonForm α] (g : Given) (field : String) (absent : α) : Option α :=
  match g.members.find? field with
  | none => some absent
  | some x => JsonForm.read? g.reading x

/-- What a document gives for some fields. -/
def ofJson? (fields : List String) (reading : Reading) : Json → Option Given
  | .object ms =>
    let known := ms.filter fun m => fields.contains m.1
    if (known.map (·.1)).Nodup then some ⟨reading, known, false⟩ else none
  | .array xs => if xs.length ≤ fields.length then some ⟨reading, fields.zip xs, true⟩ else none
  | _ => none

end Given

/-- A type whose values are records with named fields. -/
class Record (α : Type) where
  /-- The fields in order. -/
  fields : List String
  /-- The members of a value, in the order of the fields. -/
  toMembers : α → Members
  /-- The value that is given. -/
  ofGiven? : Given → Option α

export Record (toMembers)

instance (priority := low) {α : Type} [Record α] : JsonForm α where
  toJson x := .object (toMembers x)
  read? reading x := (Given.ofJson? (Record.fields α) reading x).bind Record.ofGiven?

end SchemaEvolution
