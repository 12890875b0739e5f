import SchemaEvolution.Json.Printer
import SchemaEvolution.Json.Reader
import SchemaEvolution.Schema.Load

/-!
# Snapshots

A snapshot is the schema at one point of its history, as a document: the rows, the ids of the
snapshot and of the ones before it, and the renames that led to it. When a snapshot is read, its
version and dialect are examined first, then the shape of its rows.
-/

namespace SchemaEvolution

/-- A schema at one point of its history. -/
structure Snapshot where
  version : String
  dialect : String
  id : String
  /-- The ids of the snapshots that this one follows. -/
  prevIds : List String
  rows : List Entity
  /-- The renames that were accepted when the snapshot was made, as entries. -/
  renames : List String := []
deriving DecidableEq, Repr

instance : Record Snapshot where
  fields := ["version", "dialect", "id", "prevIds", Catalog.rowsField, "renames"]
  toMembers s := [("version", toJson s.version), ("dialect", toJson s.dialect),
    ("id", toJson s.id), ("prevIds", toJson s.prevIds), (Catalog.rowsField, toJson s.rows),
    ("renames", toJson s.renames)]
  ofGiven? g := do
    return {
      version := ← g.required? "version"
      dialect := ← g.required? "dialect"
      id := ← g.required? "id"
      prevIds := ← g.required? "prevIds"
      rows := ← g.required? Catalog.rowsField
      renames := ← g.optional? "renames" [] }

namespace Snapshot

def currentVersion : String := "6"

/-- The dialect of the schemas. -/
def mysqlDialect : String := "mysql"

/-- The id of the snapshot that every history starts from. -/
def originId : String := "00000000-0000-0000-0000-000000000000"

/-- The snapshot that every history starts from. -/
def origin : Snapshot :=
  { version := currentVersion, dialect := mysqlDialect, id := originId, prevIds := [], rows := [] }

/-- The snapshot of a catalog that follows another one. -/
def ofCatalog (id : String) (c : Catalog) (previous : Snapshot) : Snapshot :=
  { version := currentVersion
    dialect := mysqlDialect
    id
    prevIds := [previous.id]
    rows := c.entities }

/-- The catalog of the rows. -/
def catalog (s : Snapshot) : Except Error Catalog :=
  Catalog.ofEntities s.rows

/-! ## Documents -/

/-- The member of a document, if it is an object that has it. -/
def member? (x : Json) (field : String) : Option Json :=
  match x with
  | .object ms => Members.find? ms field
  | _ => none

/-- Examines that a field holds the expected tag. -/
def requireTag (x : Json) (field expected : String) : Except Error Unit :=
  match member? x field with
  | some (.string found) =>
    if found = expected then .ok () else .error (.unsupported field expected (some found))
  | _ => .error (.unsupported field expected none)

/-- Examines the shape of the rows. -/
def requireRows (x : Json) : Except Error Unit :=
  match member? x Catalog.rowsField with
  | some (.array rows) =>
    match Shape.rowsFaults Catalog.rowsField rows with
    | [] => .ok ()
    | faults => .error (.invalid faults)
  | _ => .error (.invalid [⟨Catalog.rowsField, "array"⟩])

/-- The snapshot that the value of a document holds. -/
def ofValue (x : Json) : Except Error Snapshot := do
  requireTag x "version" currentVersion
  requireTag x "dialect" mysqlDialect
  requireRows x
  match ofJson? x with
  | some s => .ok s
  | none => .error .unreadable

def ofText (text : String) : Except Error Snapshot :=
  match (Json.ofString? text).bind Json.value? with
  | some x => ofValue x
  | none => .error .unreadable

def toText (s : Snapshot) : String :=
  (toJson s).pretty

end Snapshot

end SchemaEvolution
