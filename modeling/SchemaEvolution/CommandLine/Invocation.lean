import SchemaEvolution.CommandLine.Arguments
import SchemaEvolution.Settings

/-!
# Invocations

What a command line asks for: the migration between two snapshots (`diff`), the examination of a
snapshot (`check`), or a new snapshot of a schema description (`snapshot`). Two settings may also
come from the environment; the command line counts before it.
-/

namespace SchemaEvolution.CommandLine

/-- The request to write the migration between two snapshots. -/
structure DiffRequest where
  /-- The path of the snapshot to start from, or a dash for the empty schema. -/
  source : String
  target : String
  mode : Option Mode
  renames : List String
  /-- Whether to ask about renames. -/
  interactive : Bool
  breakpoints : Bool
  /-- Whether to print the statements as a document. -/
  asDocument : Bool
deriving DecidableEq, Repr

/-- The request to write a snapshot of a schema description. -/
structure SnapshotRequest where
  description : String
  output : String
  /-- The path of the snapshot that the new one follows. -/
  previous : Option String
  renames : List String
deriving DecidableEq, Repr

inductive Command where
  | diff (request : DiffRequest)
  | check (path : String)
  | snapshot (request : SnapshotRequest)
deriving DecidableEq, Repr

/-- A command with the path of the settings. -/
structure Invocation where
  settings : String
  verbose : Bool
  command : Command
deriving DecidableEq, Repr

/-- The variables of the environment that count. -/
structure Environment where
  mode : Option String := none
  breakpoints : Option String := none
deriving DecidableEq, Repr

namespace Environment

def modeVariable : String := "SCHEMADIFF_MODE"

def breakpointsVariable : String := "SCHEMADIFF_BREAKPOINTS"

end Environment

namespace Invocation

/-- A path, which is not empty. -/
def path? (text : String) : Option String :=
  if text = "" then none else some text

/-- A path that may be missing. -/
def optionalPath? : Option String → Option (Option String)
  | none => some none
  | some text => (path? text).map some

/-- The mode that a word names, if there is one. -/
def mode? : Option String → Option (Option Mode)
  | none => some none
  | some word => (Mode.ofString word).toOption.map some

/-- A Boolean word; without one the answer is no. -/
def boolean? : Option String → Option Bool
  | none => some false
  | some "true" => some true
  | some "false" => some false
  | some _ => none

/-! ## Options -/

def generalForms : List OptionForm :=
  [⟨"config", some 'c', true⟩, ⟨"verbose", some 'v', false⟩]

def diffForms : List OptionForm :=
  [⟨"from", none, true⟩, ⟨"to", none, true⟩, ⟨"mode", none, true⟩, ⟨"rename", none, true⟩,
    ⟨"interactive", some 'i', false⟩, ⟨"breakpoints", none, false⟩, ⟨"json", none, false⟩]

def snapshotForms : List OptionForm :=
  [⟨"interim", none, true⟩, ⟨"prev", none, true⟩, ⟨"out", none, true⟩, ⟨"rename", none, true⟩]

/-! ## Commands -/

/-- The request of the arguments of `diff`. -/
def diff? (env : Environment) (args : List String) : Option DiffRequest := do
  let a ← Arguments.ofList? diffForms args
  if !a.operands.isEmpty then none
  let word ← a.value? "mode"
  let breakpoints ← a.flag? "breakpoints"
  return {
    source := ← a.required? "from"
    target := ← (a.required? "to").bind path?
    mode := ← mode? (word <|> env.mode)
    renames := a.values "rename"
    interactive := ← a.flag? "interactive"
    breakpoints := ← if breakpoints then some true else boolean? env.breakpoints
    asDocument := ← a.flag? "json" }

/-- The path in the arguments of `check`. -/
def check? (args : List String) : Option String := do
  let a ← Arguments.ofList? [] args
  match a.operands with
  | [path] => path? path
  | _ => none

/-- The request of the arguments of `snapshot`. -/
def snapshot? (args : List String) : Option SnapshotRequest := do
  let a ← Arguments.ofList? snapshotForms args
  if !a.operands.isEmpty then none
  return {
    description := ← (a.required? "interim").bind path?
    output := ← (a.required? "out").bind path?
    previous := ← (a.value? "prev").bind optionalPath?
    renames := a.values "rename" }

/-- A command by its name. -/
def command? (env : Environment) (name : String) (args : List String) : Option Command :=
  if name = "diff" then (diff? env args).map .diff
  else if name = "check" then (check? args).map .check
  else if name = "snapshot" then (snapshot? args).map .snapshot
  else none

/-- What a command line asks for, or nothing if it is malformed. -/
def ofArguments? (env : Environment) (args : List String) : Option Invocation := do
  let (a, name, rest) ← Arguments.split? generalForms {} args
  let settings ← a.value? "config"
  return {
    settings := ← path? (settings.getD Settings.defaultPath)
    verbose := ← a.flag? "verbose"
    command := ← command? env name rest }

end Invocation

end SchemaEvolution.CommandLine
