import SchemaEvolution.CommandLine.Invocation
import SchemaEvolution.Migration
import SchemaEvolution.Rename.Prompt
import SchemaEvolution.Schema.Description
import SchemaEvolution.Snapshot

/-!
# Running a command

A command is run over the operations that it needs of the world (`World`), in any monad. It ends
with a message, or without one if what it has printed says enough, or with a failure.
-/

namespace SchemaEvolution.CommandLine

/-- What a command needs of the world. -/
structure World (m : Type → Type) where
  /-- Whether there is something at a path. -/
  exists? : String → m Bool
  /-- The text of a file, or why it cannot be read. -/
  read : String → m (Except String String)
  /-- Writes the text of a file, or says why that is impossible. -/
  write : String → String → m (Except String Unit)
  /-- Prints a text on a line of its own. -/
  print : String → m Unit
  /-- Puts a question to the user. -/
  ask : Prompt.Question → m (Except String Nat)
  /-- An id that was never used. -/
  freshId : m String

/-- Why a command fails. -/
inductive Failure where
  | settingsUnread (path reason : String)
  | settingsInvalid (path : String)
  | loading (path reason : String)
  | describing (path reason : String)
  | migrating (error : Error)
  | writing (reason : String)
deriving DecidableEq, Repr

def Failure.message : Failure → String
  | .settingsUnread path reason => "Failed to read config " ++ path ++ ": " ++ reason
  | .settingsInvalid path => "Invalid config " ++ path
  | .loading path _ => "loading snapshot " ++ path
  | .describing path _ => "reading interim schema " ++ path
  | .migrating e => e.message
  | .writing reason => "IO error: " ++ reason

/-- What is behind a failure and not in its message. -/
def Failure.cause? : Failure → Option String
  | .loading _ reason => some reason
  | .describing _ reason => some reason
  | _ => none

variable {m : Type → Type} [Monad m]

/-- The error of a migration as a failure. -/
def migrating {α : Type} (x : Except Error α) : ExceptT Failure m α :=
  match x with
  | .ok a => return a
  | .error e => throw (.migrating e)

def readSettings (w : World m) (path : String) : ExceptT Failure m Settings := do
  let text ← if ← w.exists? path then
      match ← w.read path with
      | .ok text => pure (some text)
      | .error reason => throw (.settingsUnread path reason)
    else pure none
  match Settings.ofText? text with
  | some s => return s
  | none => throw (.settingsInvalid path)

def readSnapshot (w : World m) (path : String) : ExceptT Failure m Snapshot := do
  match ← w.read path with
  | .error reason => throw (.loading path ("IO error: " ++ reason))
  | .ok text =>
    match Snapshot.ofText text with
    | .ok s => return s
    | .error e => throw (.loading path e.message)

/-- Prints the migration between two snapshots. -/
def runDiff (w : World m) (settings : Settings) (r : DiffRequest) :
    ExceptT Failure m (Option String) := do
  let source ← if r.source = "-" then pure Snapshot.origin else readSnapshot w r.source
  let target ← readSnapshot w r.target
  let known ← migrating (RenameTable.ofEntries (settings.renames ++ target.renames ++ r.renames))
  let resolver := if r.interactive then Prompt.resolver w.ask known else known.resolver
  let options : MigrationOptions :=
    { mode := (r.mode <|> settings.mode).getD .default
      breakpoints := r.breakpoints || settings.breakpoints }
  let sourceCatalog ← migrating source.catalog
  let targetCatalog ← migrating target.catalog
  let x ← migrating (← (Migration.between resolver options sourceCatalog targetCatalog).run)
  if x.isEmpty then return some "No schema changes."
  w.print (if r.asDocument then (toJson x.statements).pretty else x.text)
  return none

/-- Examines the snapshot at a path. -/
def runCheck (w : World m) (path : String) : ExceptT Failure m (Option String) := do
  let s ← readSnapshot w path
  let c ← migrating s.catalog
  return some (path ++ " is valid: " ++ toString c.size ++ " entities, id " ++ s.id)

/-- Writes the snapshot of a schema description. -/
def runSnapshot (w : World m) (r : SnapshotRequest) : ExceptT Failure m (Option String) := do
  let text ← match ← w.read r.description with
    | .ok text => pure text
    | .error reason => throw (.describing r.description reason)
  let catalog ← migrating ((Description.ofText text).bind Catalog.ofDescription)
  let previous ← match r.previous with
    | some path => readSnapshot w path
    | none => pure Snapshot.origin
  let s := { Snapshot.ofCatalog (← w.freshId) catalog previous with renames := r.renames }
  match ← w.write r.output s.toText with
  | .ok () => return some ("Wrote snapshot " ++ r.output ++ " (" ++ s.id ++ ")")
  | .error reason => throw (.writing reason)

/-- Runs what a command line asks for. -/
def run (w : World m) (i : Invocation) : ExceptT Failure m (Option String) := do
  let settings ← readSettings w i.settings
  match i.command with
  | .diff r => runDiff w settings r
  | .check path => runCheck w path
  | .snapshot r => runSnapshot w r

end SchemaEvolution.CommandLine
