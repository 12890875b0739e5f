import SchemaEvolution.Json.Token

/-!
# Reading a document

A pushdown automaton that takes one token at a time. Its stack holds the arrays and objects that
are open, innermost first; the gathered items and members are in reverse.
-/

namespace SchemaEvolution.Json

namespace Reader

/-- The members of an open object. -/
abbrev Gathered := List (Option String × Json)

/-- An open array, or an open object with the key whose value is being read. -/
inductive Frame where
  | array (items : List Json)
  | object (members : Gathered) (key : Option String)

/-- What the reader expects: a value, or nothing more in an array that has just been opened
(`opened`); a key, likewise; a colon; or, after a value, the end or more of what is open. -/
inductive State where
  | value (stack : List Frame) (opened : Bool)
  | key (stack : List Frame) (members : Gathered) (opened : Bool)
  | colon (stack : List Frame) (members : Gathered) (key : Option String)
  | done (stack : List Frame) (x : Json)

def closeObject (members : Gathered) : Json :=
  match members.reverse.mapM fun m => m.1.map fun k => (k, m.2) with
  | some ms => .object ms
  | none => .unreadable

/-- The step on a token where a value is expected. -/
def stepValue (stack : List Frame) (opened : Bool) : Token → Option State
  | .null => some (.done stack .null)
  | .bool b => some (.done stack (.bool b))
  | .number n => some (.done stack (.number n))
  | .string s => some (.done stack (s.elim .unreadable .string))
  | .openArray => some (.value (.array [] :: stack) true)
  | .openObject => some (.key stack [] true)
  | .closeArray =>
    match opened, stack with
    | true, .array [] :: rest => some (.done rest (.array []))
    | _, _ => none
  | _ => none

/-- The step on a token after a value. -/
def stepDone (x : Json) : List Frame → Token → Option State
  | .array items :: rest, .comma => some (.value (.array (x :: items) :: rest) false)
  | .array items :: rest, .closeArray => some (.done rest (.array (x :: items).reverse))
  | .object members key :: rest, .comma => some (.key rest ((key, x) :: members) false)
  | .object members key :: rest, .closeObject =>
    some (.done rest (closeObject ((key, x) :: members)))
  | _, _ => none

/-- Takes one token. -/
def step (s : State) (t : Token) : Option State :=
  match s, t with
  | .value stack opened, t => stepValue stack opened t
  | .key stack members _, .string k => some (.colon stack members k)
  | .key stack [] true, .closeObject => some (.done stack (.object []))
  | .colon stack members k, .colon => some (.value (.object members k :: stack) false)
  | .done stack x, t => stepDone x stack t
  | _, _ => none

/-- The document that ends here. -/
def finish : State → Option Json
  | .done [] x => some x
  | _ => none

end Reader

/-- Reads the document that makes up a whole text. -/
def ofChars? (cs : List Char) : Option Json :=
  (tokens? cs).bind fun ts => (ts.foldlM Reader.step (.value [] false)).bind Reader.finish

def ofString? (s : String) : Option Json :=
  ofChars? s.toList

end SchemaEvolution.Json
