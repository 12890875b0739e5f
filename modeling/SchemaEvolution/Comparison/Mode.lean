import SchemaEvolution.Json.Record

/-!
# Modes of comparison

A schema is compared with what was declared before, where its text counts, or with what a
database reports, where more forms mean the same.
-/

namespace SchemaEvolution

/-- How strictly two schemas are compared. -/
inductive Mode where
  /-- Against a declared schema. -/
  | default
  /-- Against a live database. -/
  | push
deriving DecidableEq, Repr

instance : Word Mode where
  all := [.default, .push]
  text
    | .default => "default"
    | .push => "push"

namespace Mode

/-- Whether the comparison is against a live database. -/
def isPush (m : Mode) : Bool :=
  m == .push

/-- The mode that a word names, in capital or small ASCII letters; else a message. -/
def ofString (s : String) : Except String Mode :=
  let word := String.ofList (s.toList.map Char.toLower)
  match Word.ofText? word with
  | some m => .ok m
  | none => .error ("unknown mode '" ++ word ++ "', expected default|push")

end Mode

end SchemaEvolution
