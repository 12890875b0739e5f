import SchemaEvolution.Schema.Fault
import SchemaEvolution.Schema.Key

/-!
# Errors

The ways in which reading a schema or planning a migration fails. Each constructor is a cause;
`Error.message` puts it into words.
-/

namespace SchemaEvolution

/-- A name that a schema description declares again. -/
inductive NameConflict where
  | table (name : String)
  | column (table name : String)
  | index (table name : String)
deriving DecidableEq, Repr

def NameConflict.message : NameConflict → String
  | .table n => "Table '" ++ n ++ "' is declared more than once"
  | .column t n => "Column '" ++ n ++ "' is declared more than once in table '" ++ t ++ "'"
  | .index t n => "Index '" ++ n ++ "' is declared more than once on table '" ++ t ++ "'"

/-- Two rows under one key, where the sources of rows are trusted to name each row once. -/
inductive KeyClash where
  /-- An update would give two rows of a kind one key. -/
  | update (kind : Kind) (key : Key)
  /-- A table has a second primary key. -/
  | primaryKey (table : String)
  | foreignKey (table name : String)
  | check (table name : String)
  | view (name : String)
  | viewColumn (view name : String)
deriving DecidableEq, Repr

def KeyClash.message : KeyClash → String
  | .update kind key => "update would duplicate " ++ kind.tag ++ " key " ++ key.shown
  | .primaryKey t => "table '" ++ t ++ "' has more than one primary key"
  | .foreignKey t n => "duplicate foreign key '" ++ n ++ "' on table '" ++ t ++ "'"
  | .check t n => "duplicate check '" ++ n ++ "' on table '" ++ t ++ "'"
  | .view n => "duplicate view '" ++ n ++ "'"
  | .viewColumn v n => "duplicate view column '" ++ n ++ "' on table '" ++ v ++ "'"

/-- How an answer about renames fails to account for the rows that were offered. -/
inductive Breach where
  | notCreated (key : Key)
  | notDeleted (key : Key)
  | unanswered (keys : List Key)
deriving DecidableEq, Repr

def Breach.message : Breach → String
  | .notCreated key => key.shown ++ " is not a pending create"
  | .notDeleted key => key.shown ++ " is not a pending delete"
  | .unanswered keys => "unanswered: " ++ ", ".intercalate (keys.map Key.shown)

/-- Why a schema cannot be read or a migration cannot be planned. -/
inductive Error where
  /-- Given rows or entries have faults. -/
  | invalid (faults : List Fault)
  /-- A schema description declares names twice. -/
  | conflicts (conflicts : List NameConflict)
  /-- A snapshot has another version or dialect; `none` if it names none. -/
  | unsupported (field expected : String) (found : Option String)
  /-- A text is no document of the kind that is read. -/
  | unreadable
  /-- Rows that must be distinct share a key. -/
  | clash (clash : KeyClash)
  /-- Renames of a kind could not be resolved. -/
  | unresolved (kind : Kind) (reason : String)
  /-- The answer about renames of a kind is inconsistent. -/
  | inconsistent (kind : Kind) (breach : Breach)
deriving DecidableEq, Repr

/-- A heading with an indented list of lines. -/
def bulleted (heading : String) (lines : List String) : String :=
  heading ++ "\n" ++ "\n".intercalate (lines.map fun line => "  - " ++ line)

def Error.message : Error → String
  | .invalid faults => bulleted "Invalid catalog data:" (faults.map Fault.message)
  | .conflicts cs => bulleted "Schema errors:" (cs.map NameConflict.message)
  | .unsupported field expected found =>
    "Unsupported snapshot " ++ field ++ ": expected '" ++ expected ++ "', found '" ++
      found.getD "<missing>" ++ "'"
  | .unreadable => "Serialization error"
  | .clash c => "Internal error: " ++ c.message
  | .unresolved kind reason => "Rename resolver failed for " ++ kind.tag ++ ": " ++ reason
  | .inconsistent kind b =>
    "Rename resolver returned an inconsistent answer for " ++ kind.tag ++ ": " ++ b.message

end SchemaEvolution
