import SchemaEvolution.Comparison.Mode
import SchemaEvolution.Json.Reader
import SchemaEvolution.Number.Binary64Text
import SchemaEvolution.Number.Decimal
import SchemaEvolution.Schema.Column
import SchemaEvolution.Sql.Clock
import SchemaEvolution.Sql.ColumnType
import SchemaEvolution.Sql.Instant
import SchemaEvolution.Sql.Literal

/-!
# Values that mean the same

Types, defaults, character sets, collations and expressions can differ in text and mean the same
to the server. In the mode `push`, where a database reports its own spelling, more texts mean the
same than in the mode `default`.
-/

namespace SchemaEvolution.Comparison

open Text Sql Number

/-! ## Types -/

/-- Base names of whole-number types. -/
def integerBases : List String :=
  ["tinyint", "smallint", "mediumint", "int", "bigint"]

/-- A type with its synonyms and default arguments spelled out. -/
def spellOut (t : ColumnType) : ColumnType :=
  if t.base ∈ ["boolean", "bool"] ∧ t.args = none then
    { t with base := "tinyint", args := some "1" }
  else if t.base ∈ ["binary", "char"] ∧ t.args = none then { t with args := some "1" }
  else if t.base = "integer" then { t with base := "int" }
  else if t.base ∈ ["decimal", "numeric", "dec", "fixed"] then
    let args := match t.args with
      | none => "10,0"
      | some a => if ',' ∈ a.toList then a else a ++ ",0"
    { t with base := "decimal", args := some args }
  else if t.base ∈ ["double precision", "real"] then { t with base := "double" }
  else if t.base ∈ ["timestamp", "datetime", "time"] ∧ t.args = some "0" then
    { t with args := none }
  else t

/-- A type without the display width of a whole number, which a database does not report, except
for the one width that marks a Boolean. -/
def withoutWidth (t : ColumnType) : ColumnType :=
  if t.base ∈ integerBases ∧ ¬(t.base = "tinyint" ∧ t.args = some "1") then { t with args := none }
  else t

/-- The one text of all types that mean the same. -/
def canonicalType (mode : Mode) (raw : String) : String :=
  let t := spellOut (ColumnType.ofString raw)
  if mode.isPush then
    if t.isSerial then "bigint unsigned" else (withoutWidth t).render
  else t.render

/-- Whether two types mean the same. -/
def sameType (mode : Mode) (a b : String) : Bool :=
  canonicalType mode a == canonicalType mode b

/-! ## Character sets and collations -/

def lowerAscii (s : String) : List Char :=
  s.toList.map Char.toLower

/-- A character set under its current name; one that is not given is the default of the server. -/
def canonicalCharSet (charSet : Option String) : List Char :=
  let name := lowerAscii (charSet.getD "utf8mb4")
  if name = "utf8".toList then "utf8mb3".toList else name

def sameCharSet (mode : Mode) (a b : Option String) : Bool :=
  if mode.isPush then canonicalCharSet a == canonicalCharSet b else a == b

/-- A collation under its current name; one that is not given is the default of the server. -/
def canonicalCollation (collation : Option String) : List Char :=
  let name := lowerAscii (collation.getD "utf8mb4_0900_ai_ci")
  match dropStart? "utf8_".toList name with
  | some rest => "utf8mb3_".toList ++ rest
  | none => name

def sameCollation (mode : Mode) (a b : Option String) : Bool :=
  if mode.isPush then canonicalCollation a == canonicalCollation b else a == b

/-! ## Expressions -/

/-- An expression without blanks, quotes of names and parentheses, in lower case. -/
def bareExpression (cs : List Char) : List Char :=
  lowercase (cs.filter fun c => !(isBlank c || c == '\x60' || c == '(' || c == ')'))

/-- Whether two expressions mean the same. -/
def sameExpression (mode : Mode) (a b : String) : Bool :=
  Expression.withoutOuterParens a.toList == Expression.withoutOuterParens b.toList ||
    mode.isPush && bareExpression a.toList == bareExpression b.toList

/-! ## Numbers -/

/-- Whether two texts are the same number: plain decimal literals by their digits, all others as
floating-point numbers that lie next to each other. -/
def sameNumber (a b : List Char) : Bool :=
  match Decimal.canonical? a, Decimal.canonical? b with
  | some x, some y => x == y
  | _, _ =>
    match Binary64.ofChars? (trim a), Binary64.ofChars? (trim b) with
    | some x, some y => x.isNear y
    | _, _ => false

/-! ## Default values -/

/-- The text behind a default value: an expression loses parentheses around it, and a literal its
quotes. -/
def literalText (d : DefaultValue) : List Char :=
  match d.kind with
  | .unknown =>
    let bare := Expression.withoutOuterParens d.value.toList
    (Literal.unquote bare).getD bare
  | .json | .text => (Literal.unquote d.value.toList).getD d.value.toList
  | _ => d.value.toList

/-- Whether two default values are the same as they stand. -/
def sameAsWritten (a b : DefaultValue) : Bool :=
  a.kind == b.kind &&
    match a.kind with
    | .unknown => Clock.canonical a.value.toList == Clock.canonical b.value.toList
    | _ => a.value == b.value

/-- Whether two texts mean the same value of a column type: the same instant if both are dates,
the same document if one of the defaults is a document and both texts are, else the same
number. -/
def sameMeaning (type : String) (isDocument : Bool) (a b : List Char) : Bool :=
  let instants := if (ColumnType.ofString type).isTemporal then
    (Instant.ofChars? a).bind fun x => (Instant.ofChars? b).map fun y => x == y else none
  let documents := if isDocument then
    ((Json.ofChars? a).bind Json.value?).bind fun x =>
      ((Json.ofChars? b).bind Json.value?).map fun y => x.same y else none
  (instants <|> documents).getD (sameNumber a b)

/-- Whether two default values of a column type mean the same. -/
def sameDefault (mode : Mode) (type : String) (a b : DefaultValue) : Bool :=
  sameAsWritten a b || mode.isPush && (literalText a == literalText b ||
    sameMeaning type (a.kind == .json || b.kind == .json) (literalText a) (literalText b))

end SchemaEvolution.Comparison
