import SchemaEvolution.Json.Printer
import SchemaEvolution.Json.Reader
import SchemaEvolution.Schema.Check
import SchemaEvolution.Schema.Column
import SchemaEvolution.Schema.ForeignKey
import SchemaEvolution.Schema.Index
import SchemaEvolution.Schema.PrimaryKey
import SchemaEvolution.Schema.View
import SchemaEvolution.Sql.Identifier
import SchemaEvolution.Sql.Literal

/-!
# Clauses

The clauses by which SQL declares columns, keys, indexes, checks and views. Names are quoted;
types, expressions and definitions are opaque and stand as they are.
-/

namespace SchemaEvolution

open Sql

/-! ## Columns -/

/-- A text as a string literal. -/
def literal (s : String) : String :=
  String.ofList (Literal.quote s.toList)

/-- A document in its shortest form; a text that is no document stays as it is. -/
def compactDocument (s : String) : String :=
  match (Json.ofString? s).bind Json.value? with
  | some x => x.compact
  | none => s

/-- A default value. The server takes defaults of long texts and of documents only as
expressions, in parentheses. -/
def DefaultValue.clause (d : DefaultValue) : String :=
  match d.kind with
  | .string => literal d.value
  | .text => "(" ++ literal d.value ++ ")"
  | .json => "(" ++ literal (compactDocument d.value) ++ ")"
  | _ => d.value

/-- The keyword for how a generated column is stored. -/
def Storage.keyword : Storage → String
  | .stored => "STORED"
  | .computed => "VIRTUAL"

/-- A text in front of a value, if there is one. -/
def optionalClause (lead : String) (value : Option String) : String :=
  value.elim "" fun v => lead ++ v

/-- A clause, if it holds. -/
def clauseIf (holds : Bool) (clause : String) : String :=
  if holds then clause else ""

/-- How a column is generated; the server accepts this directly after the type alone. -/
def Generated.clause (g : Generated) : String :=
  " GENERATED ALWAYS AS (" ++ g.expression ++ ") " ++ g.storage.keyword

/-- The definition of a column. With `isKey` it declares the primary key, too. -/
def Column.clause (c : Column) (isKey : Bool) : String :=
  identifier c.name ++ " " ++ c.type ++ optionalClause " CHARACTER SET " c.charSet ++
    optionalClause " COLLATE " c.collation ++ c.generated.elim "" Generated.clause ++
    clauseIf c.autoIncrement " AUTO_INCREMENT" ++ clauseIf isKey " PRIMARY KEY" ++
    clauseIf c.notNull " NOT NULL" ++
    optionalClause " DEFAULT " (c.defaultValue.map DefaultValue.clause) ++
    clauseIf c.onUpdateNow " ON UPDATE CURRENT_TIMESTAMP"

/-! ## Keys, indexes and checks -/

/-- A primary key under its name, for the definition of a table. -/
def PrimaryKey.clause (k : PrimaryKey) : String :=
  "CONSTRAINT " ++ identifier k.name ++ " PRIMARY KEY(" ++ identifiers k.columns ++ ")"

def ForeignKey.clause (k : ForeignKey) : String :=
  "CONSTRAINT " ++ identifier k.name ++ " FOREIGN KEY (" ++ identifiers k.columns ++
    ") REFERENCES " ++ identifier k.target ++ "(" ++ identifiers k.targetColumns ++
    ") ON DELETE " ++ Word.text k.onDelete ++ " ON UPDATE " ++ Word.text k.onUpdate

/-- A part of an index; an expression stands in parentheses. -/
def IndexPart.clause : IndexPart → String
  | .column name => identifier name
  | .expression sql => "(" ++ sql ++ ")"

def Index.partsClause (i : Index) : String :=
  commaSeparated (i.parts.map IndexPart.clause)

/-- A unique index as a constraint, for the definition of a table. -/
def Index.uniqueClause (i : Index) : String :=
  "CONSTRAINT " ++ identifier i.name ++ " UNIQUE(" ++ i.partsClause ++ ")"

/-- An index with everything that its creation says. -/
def Index.clause (i : Index) : String :=
  clauseIf i.isUnique "UNIQUE " ++ "INDEX " ++ identifier i.name ++
    optionalClause " USING " (i.dataStructure.map Word.text) ++
    " ON " ++ identifier i.table ++ " (" ++ i.partsClause ++ ")" ++
    optionalClause " ALGORITHM = " (i.algorithm.map Word.text) ++
    optionalClause " LOCK = " (i.lock.map Word.text)

def Check.clause (c : Check) : String :=
  "CONSTRAINT " ++ identifier c.name ++ " CHECK(" ++ c.value ++ ")"

/-! ## Views -/

def View.clause (v : View) : String :=
  "ALGORITHM = " ++ Word.text v.algorithm ++ " SQL SECURITY " ++ Word.text v.sqlSecurity ++
    " VIEW " ++ identifier v.name ++ " AS (" ++ v.definition ++ ")" ++
    v.withCheckOption.elim "" fun o => " WITH " ++ Word.text o ++ " CHECK OPTION"

end SchemaEvolution
