/-!
# Quoted identifiers

An identifier stands between backticks. Inside, a backtick is written twice, so any text can be
a name.
-/

namespace SchemaEvolution.Sql

namespace Identifier

/-- The inside of a quoted identifier: a backtick is doubled. -/
def escape (cs : List Char) : List Char :=
  cs.flatMap fun c => if c = '\x60' then [c, c] else [c]

/-- A name as a quoted identifier. -/
def quote (cs : List Char) : List Char :=
  '\x60' :: escape cs ++ ['\x60']

end Identifier

def identifier (name : String) : String :=
  String.ofList (Identifier.quote name.toList)

/-- Parts with commas between them. -/
def commaSeparated (parts : List String) : String :=
  ",".intercalate parts

/-- Names as quoted identifiers with commas between them. -/
def identifiers (names : List String) : String :=
  commaSeparated (names.map identifier)

end SchemaEvolution.Sql
