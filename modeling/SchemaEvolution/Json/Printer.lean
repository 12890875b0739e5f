import SchemaEvolution.Json.Basic

/-!
# Writing a document

A document is written compactly on one line (`compact`), or with each item and each member on a
line of its own, indented by two spaces for each level (`pretty`). In strings the quote, the
backslash and the control characters are escaped, and nothing else.
-/

namespace SchemaEvolution.Json

open Text

/-- A hexadecimal digit in lower case. -/
def hexDigit (n : Nat) : Char :=
  Nat.digitChar n

/-- A character inside a string. -/
def escapeChar (c : Char) : List Char :=
  if c = '"' then ['\\', '"']
  else if c = '\\' then ['\\', '\\']
  else if c = '\x08' then ['\\', 'b']
  else if c = '\x0c' then ['\\', 'f']
  else if c = '\n' then ['\\', 'n']
  else if c = '\r' then ['\\', 'r']
  else if c = '\t' then ['\\', 't']
  else if c.toNat < 0x20 then
    ['\\', 'u', '0', '0', hexDigit (c.toNat / 16), hexDigit (c.toNat % 16)]
  else [c]

def quoted (s : String) : List Char :=
  '"' :: s.toList.flatMap escapeChar ++ ['"']

/-- A number: its value, or the literal as it is written if it has none. -/
def numberText (n : Numeral) : List Char :=
  match n.value? with
  | some v => v.render
  | none =>
    (if n.negative then ['-'] else []) ++ n.whole ++
      (if n.fraction = [] then [] else '.' :: n.fraction) ++
      n.exponent.elim [] fun e => 'e' :: (if e < 0 then ['-'] else []) ++ decimalDigits e.natAbs

mutual

/-- A document on one line. -/
def compactChars : Json → List Char
  | .null => "null".toList
  | .bool b => (if b then "true" else "false").toList
  | .number n => numberText n
  | .string s => quoted s
  | .array [] => ['[', ']']
  | .array (x :: xs) => '[' :: compactChars x ++ compactItems xs
  | .object [] => ['{', '}']
  | .object ((k, x) :: ms) => '{' :: quoted k ++ ':' :: compactChars x ++ compactMembers ms
  | .unreadable => "null".toList

def compactItems : List Json → List Char
  | [] => [']']
  | x :: xs => ',' :: compactChars x ++ compactItems xs

def compactMembers : List (String × Json) → List Char
  | [] => ['}']
  | (k, x) :: ms => ',' :: quoted k ++ ':' :: compactChars x ++ compactMembers ms

end

/-- The start of a line at a level. -/
def newLine (level : Nat) : List Char :=
  '\n' :: List.replicate (2 * level) ' '

mutual

/-- A document on indented lines, at a level. -/
def prettyChars (level : Nat) : Json → List Char
  | .array (x :: xs) =>
    '[' :: newLine (level + 1) ++ prettyChars (level + 1) x ++ prettyItems level xs
  | .object ((k, x) :: ms) =>
    '{' :: newLine (level + 1) ++ quoted k ++ ':' :: ' ' :: prettyChars (level + 1) x ++
      prettyMembers level ms
  | .null => "null".toList
  | .bool b => (if b then "true" else "false").toList
  | .number n => numberText n
  | .string s => quoted s
  | .array [] => ['[', ']']
  | .object [] => ['{', '}']
  | .unreadable => "null".toList

/-- The items of an array at a level, after the first one. -/
def prettyItems (level : Nat) : List Json → List Char
  | [] => newLine level ++ [']']
  | x :: xs => ',' :: newLine (level + 1) ++ prettyChars (level + 1) x ++ prettyItems level xs

/-- The members of an object at a level, after the first one. -/
def prettyMembers (level : Nat) : List (String × Json) → List Char
  | [] => newLine level ++ ['}']
  | (k, x) :: ms =>
    ',' :: newLine (level + 1) ++ quoted k ++ ':' :: ' ' :: prettyChars (level + 1) x ++
      prettyMembers level ms

end

/-- A document on one line. -/
def compact (x : Json) : String :=
  String.ofList x.compactChars

/-- A document on indented lines. -/
def pretty (x : Json) : String :=
  String.ofList (x.prettyChars 0)

end SchemaEvolution.Json
