import SchemaEvolution.Comparison.Mode
import SchemaEvolution.Json.Reader

/-!
# Project settings

The settings of a project, kept in a file. They hold where the command line says nothing.
-/

namespace SchemaEvolution

/-- The settings of a project. -/
structure Settings where
  mode : Option Mode := none
  breakpoints : Bool := false
  /-- Known renames, as entries. -/
  renames : List String := []
deriving DecidableEq, Repr

instance : Record Settings where
  fields := ["mode", "breakpoints", "renames"]
  toMembers s := [("mode", toJson s.mode), ("breakpoints", toJson s.breakpoints),
    ("renames", toJson s.renames)]
  ofGiven? g := do
    return {
      mode := ← g.optional? "mode" none
      breakpoints := ← g.optional? "breakpoints" false
      renames := ← g.optional? "renames" [] }

namespace Settings

def defaultPath : String := "schemadiff.json"

/-- Reads the text of settings; without a file the defaults hold. -/
def ofText? : Option String → Option Settings
  | none => some {}
  | some text => (Json.ofString? text).bind ofJson?

end Settings

end SchemaEvolution
