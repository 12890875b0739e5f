import SchemaEvolution.Plan.Statement

/-!
# Phases

Statements are carried out in phases: what frees names and dependencies comes before what needs
them. The phase of a statement depends on the statement alone. `Statement.ordered` sorts
scheduled statements by phase, keeping the order within a phase, and removes repetitions.
-/

namespace SchemaEvolution

/-- The phases of a migration, in order. -/
inductive Phase where
  | createTables
  | dropForeignKeys
  | dropTables
  | renameTables
  | renameColumns
  | dropViews
  | renameViews
  | alterViews
  | dropChecks
  | dropIndexes
  | dropPrimaryKeys
  | alterColumns
  | recreateColumns
  | addColumns
  | createPrimaryKeys
  | createIndexes
  | createForeignKeys
  | createChecks
  | dropColumns
  | createViews
deriving DecidableEq, Repr

namespace Phase

def all : List Phase :=
  [.createTables, .dropForeignKeys, .dropTables, .renameTables, .renameColumns, .dropViews,
    .renameViews, .alterViews, .dropChecks, .dropIndexes, .dropPrimaryKeys, .alterColumns,
    .recreateColumns, .addColumns, .createPrimaryKeys, .createIndexes, .createForeignKeys,
    .createChecks, .dropColumns, .createViews]

theorem mem_all (p : Phase) : p ∈ all := by
  cases p <;> decide

end Phase

namespace Statement

def phase : Statement → Phase
  | .createTable .. => .createTables
  | .dropConstraint _ _ .foreignKey => .dropForeignKeys
  | .dropTable .. => .dropTables
  | .renameTable .. => .renameTables
  | .renameColumn .. => .renameColumns
  | .dropView .. => .dropViews
  | .renameView .. => .renameViews
  | .alterView .. => .alterViews
  | .dropConstraint _ _ .check => .dropChecks
  | .dropIndex .. => .dropIndexes
  | .dropPrimaryKey .. => .dropPrimaryKeys
  | .alterColumn .. => .alterColumns
  | .recreateColumn .. => .recreateColumns
  | .addColumn .. => .addColumns
  | .createPrimaryKey .. => .createPrimaryKeys
  | .createIndex .. => .createIndexes
  | .createForeignKey .. => .createForeignKeys
  | .createCheck .. => .createChecks
  | .dropColumn .. => .dropColumns
  | .createView .. => .createViews

/-- The statements without repetitions; the first of equal ones stays. -/
def distinct (ss : List Statement) : List Statement :=
  ss.eraseDups

/-- The statements phase by phase. -/
def sorted (ss : List Statement) : List Statement :=
  Phase.all.flatMap fun p => ss.filter fun s => s.phase == p

/-- Scheduled statements in the order in which they are carried out. -/
def ordered (ss : List Statement) : List Statement :=
  distinct (sorted ss)

end Statement

end SchemaEvolution
