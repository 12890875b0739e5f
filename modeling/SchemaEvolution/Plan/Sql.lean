import SchemaEvolution.Plan.Clause
import SchemaEvolution.Plan.Statement

/-!
# Statements as SQL

The SQL of each statement, in the dialect of MySQL. A statement is one line of SQL, a created
table one text of several lines; a column that is made anew takes two statements.
-/

namespace SchemaEvolution

open Sql

namespace TableDefinition

/-- The column whose clause declares the primary key: the only one of a key without a name of
its own. -/
def keyColumn? (t : TableDefinition) : Option String :=
  match t.primaryKey with
  | some { nameExplicit := false, columns := [c], .. } => some c
  | _ => none

/-- The clauses of a table: columns, primary key, unique indexes, foreign keys, checks. -/
def clauses (t : TableDefinition) : List String :=
  t.columns.map (fun c => c.clause (t.keyColumn? == some c.name)) ++
    (if t.keyColumn?.isSome then [] else (t.primaryKey.map PrimaryKey.clause).toList) ++
    t.uniques.map Index.uniqueClause ++ t.foreignKeys.map ForeignKey.clause ++
    t.checks.map Check.clause

/-- The statement that creates the table. -/
def sql (t : TableDefinition) : String :=
  "CREATE TABLE " ++ identifier t.name ++ " (\n\t" ++ ",\n\t".intercalate t.clauses ++ "\n);"

end TableDefinition

/-- A change of a table. -/
def alterTable (table change : String) : String :=
  "ALTER TABLE " ++ identifier table ++ " " ++ change ++ ";"

/-- The change that adds a column. -/
def addColumn (c : Column) (isKey : Bool) : String :=
  alterTable c.table ("ADD " ++ c.clause isKey)

/-- The change that drops a column. -/
def dropColumn (c : Column) : String :=
  alterTable c.table ("DROP COLUMN " ++ identifier c.name)

/-- The statement that gives a table or a view a new name. -/
def renameTable (old new : String) : String :=
  "RENAME TABLE " ++ identifier old ++ " TO " ++ identifier new ++ ";"

/-- The keyword by which a constraint is dropped. -/
def ConstraintSort.keyword : ConstraintSort → String
  | .foreignKey => "FOREIGN KEY"
  | .check => "CONSTRAINT"

/-! ## Writers

A writer writes the statements of one kind and declines all others. -/

/-- A function that writes the SQL of some statements, each as one text or more. -/
abbrev Writer := Statement → Option (List String)

namespace Writer

def createTable : Writer
  | .createTable t => some [t.sql]
  | _ => none

def dropTable : Writer
  | .dropTable t => some ["DROP TABLE " ++ identifier t ++ ";"]
  | _ => none

def renameTable : Writer
  | .renameTable old new => some [SchemaEvolution.renameTable old new]
  | _ => none

def addColumn : Writer
  | .addColumn c isKey => some [SchemaEvolution.addColumn c isKey]
  | _ => none

def dropColumn : Writer
  | .dropColumn c => some [SchemaEvolution.dropColumn c]
  | _ => none

def renameColumn : Writer
  | .renameColumn t old new =>
    some [alterTable t ("RENAME COLUMN " ++ identifier old ++ " TO " ++ identifier new)]
  | _ => none

/-- Writes altered columns. A key that a column has already is not declared again. -/
def alterColumn : Writer
  | .alterColumn _ c isKey wasKey =>
    some [alterTable c.table ("MODIFY COLUMN " ++ c.clause (isKey && !wasKey))]
  | _ => none

/-- Writes columns that are made anew. -/
def recreateColumn : Writer
  | .recreateColumn c isKey =>
    some [SchemaEvolution.dropColumn c, SchemaEvolution.addColumn c isKey]
  | _ => none

def createIndex : Writer
  | .createIndex i => some ["CREATE " ++ i.clause ++ ";"]
  | _ => none

def dropIndex : Writer
  | .dropIndex i =>
    some ["DROP INDEX " ++ identifier i.name ++ " ON " ++ identifier i.table ++ ";"]
  | _ => none

def createForeignKey : Writer
  | .createForeignKey k => some [alterTable k.table ("ADD " ++ k.clause)]
  | _ => none

def dropConstraint : Writer
  | .dropConstraint t n sort =>
    some [alterTable t ("DROP " ++ sort.keyword ++ " " ++ identifier n)]
  | _ => none

def createPrimaryKey : Writer
  | .createPrimaryKey k =>
    some [alterTable k.table ("ADD PRIMARY KEY(" ++ identifiers k.columns ++ ")")]
  | _ => none

def dropPrimaryKey : Writer
  | .dropPrimaryKey k => some [alterTable k.table "DROP PRIMARY KEY"]
  | _ => none

def createCheck : Writer
  | .createCheck c => some [alterTable c.table ("ADD " ++ c.clause)]
  | _ => none

def createView : Writer
  | .createView v replaces => some ["CREATE " ++ clauseIf replaces "OR REPLACE " ++ v.clause ++ ";"]
  | _ => none

def alterView : Writer
  | .alterView v => some ["ALTER " ++ v.clause ++ ";"]
  | _ => none

def dropView : Writer
  | .dropView n => some ["DROP VIEW " ++ identifier n ++ ";"]
  | _ => none

/-- Writes renamed views, which the server renames as it renames tables. -/
def renameView : Writer
  | .renameView old new => some [SchemaEvolution.renameTable old new]
  | _ => none

end Writer

end SchemaEvolution
