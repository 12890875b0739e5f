import SchemaEvolution.Change.Difference
import SchemaEvolution.Comparison.Value

/-!
# Pruning alterations

For each attribute a rule says which deltas make no difference to the server. `Alterations.prune`
removes those deltas and every alteration that has none left.
-/

namespace SchemaEvolution

namespace Comparison

/-- Whether two values that may be absent are both present and the same. -/
def bothSame {α : Type} (same : α → α → Bool) : Option α → Option α → Bool
  | some a, some b => same a b
  | _, _ => false

/-- Whether two generated columns are computed alike. -/
def sameGenerated (mode : Mode) (a b : Generated) : Bool :=
  a.storage == b.storage && sameExpression mode a.expression b.expression

/-- The rules for columns. The members of a primary key are never null, whatever is declared, and
a serial column counts by itself. `inKey` tells whether the column is in a primary key on either
side, and `type` is its type on the right. -/
def redundantInColumn (mode : Mode) (inKey : Bool) (type : String) :
    (f : Column.Attribute) → Delta f.Value → Bool
  | .type, d => sameType mode d.before d.after
  | .notNull, _ => inKey
  | .default, d => bothSame (sameDefault mode type) d.before d.after
  | .autoIncrement, _ => (Sql.ColumnType.ofString type).isSerial
  | .onUpdateNow, _ => false
  | .charSet, d => sameCharSet mode d.before d.after
  | .collation, d => sameCollation mode d.before d.after
  | .generated, d => bothSame (sameGenerated mode) d.before d.after

/-- The rules for primary keys, whose names the server ignores. -/
def redundantInPrimaryKey : (f : PrimaryKey.Attribute) → Delta f.Value → Bool
  | .name, _ => true
  | .nameExplicit, _ => true
  | .columns, _ => false

/-- The action by which the server carries out a referential action. -/
def effectiveAction : ReferentialAction → ReferentialAction
  | .restrict => .noAction
  | a => a

/-- Whether two referential actions are carried out alike. -/
def sameAction (mode : Mode) (a b : ReferentialAction) : Bool :=
  mode.isPush && effectiveAction a == effectiveAction b

def redundantInForeignKey (mode : Mode) : (f : ForeignKey.Attribute) → Delta f.Value → Bool
  | .nameExplicit, _ => true
  | .columns, _ => false
  | .target, _ => false
  | .targetColumns, _ => false
  | .onUpdate, d => sameAction mode d.before d.after
  | .onDelete, d => sameAction mode d.before d.after

/-- The data structure of an index for which none is given is the B-tree. -/
def effectiveStructure (s : Option IndexStructure) : IndexStructure :=
  s.getD .btree

/-- The rules for indexes. How an index was built leaves no trace in it. -/
def redundantInIndex (mode : Mode) : (f : Index.Attribute) → Delta f.Value → Bool
  | .nameExplicit, _ => true
  | .parts, _ => false
  | .isUnique, _ => false
  | .dataStructure, d => mode.isPush && effectiveStructure d.before == effectiveStructure d.after
  | .algorithm, _ => true
  | .lock, _ => true

def redundantInCheck (mode : Mode) : (f : Check.Attribute) → Delta f.Value → Bool
  | .nameExplicit, _ => true
  | .value, d => sameExpression mode d.before d.after

/-- The rules for views. A database reports definitions in its own words. -/
def redundantInView (mode : Mode) : (f : View.Attribute) → Delta f.Value → Bool
  | .definition, _ => mode.isPush
  | .algorithm, _ => false
  | .sqlSecurity, _ => false
  | .withCheckOption, _ => false

def redundantInViewColumn (mode : Mode) : (f : ViewColumn.Attribute) → Delta f.Value → Bool
  | .type, d => sameType mode d.before d.after
  | .notNull, _ => false

/-- Whether a column is in the primary key of its table. -/
def inPrimaryKey (c : Catalog) (column : Column) : Bool :=
  (c.primaryKeyOf? column.table).any fun k => k.columns.contains column.name

/-- The rules for an altered column between two catalogs. -/
def redundantBetween (mode : Mode) (source target : Catalog) (a : ColumnAlteration) :
    (f : Column.Attribute) → Delta f.Value → Bool :=
  redundantInColumn mode (inPrimaryKey source a.right || inPrimaryKey target a.right) a.right.type

end Comparison

open Comparison in
/-- The alterations between two catalogs, without the deltas that make no difference. -/
def Alterations.prune (mode : Mode) (source target : Catalog) (a : Alterations) : Alterations where
  columns := a.columns.filterMap fun x => x.prune (redundantBetween mode source target x)
  primaryKeys := a.primaryKeys.filterMap (·.prune redundantInPrimaryKey)
  foreignKeys := a.foreignKeys.filterMap (·.prune (redundantInForeignKey mode))
  indexes := a.indexes.filterMap (·.prune (redundantInIndex mode))
  checks := a.checks.filterMap (·.prune (redundantInCheck mode))
  views := a.views.filterMap (·.prune (redundantInView mode))
  viewColumns := a.viewColumns.filterMap (·.prune (redundantInViewColumn mode))

end SchemaEvolution
