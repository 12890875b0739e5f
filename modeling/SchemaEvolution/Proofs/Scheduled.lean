import SchemaEvolution.Plan.Schedule
import SchemaEvolution.Proofs.Order

/-!
# What is scheduled

For every sort of statement, when it is part of a plan. These are the facts by which later proofs
speak of a plan; none of them looks at how the plan is put together.

Foreign keys reach a plan in three ways: they are dropped or created, they are altered, or they
rest on a primary key that changes (`PlanInput.Rebuilds`). `PlanInput.Releases` gathers what is
dropped in any of these ways.
-/

namespace SchemaEvolution

/-- The name that a table has before the renames of a run. -/
def Renames.formerTable (r : Renames) (table : String) : String :=
  match r.tables.find? fun r => r.new.name == table with
  | some r => r.old.name
  | none => table

/-! ## Keys on columns -/

theorem PrimaryKey.soleColumn?_eq_some_iff {k : PrimaryKey} {n : String} :
    k.soleColumn? = some n ↔ k.columns = [n] := by
  unfold soleColumn?
  split <;> simp_all

namespace Catalog

variable {c : Catalog}

theorem ridesOnColumn_eq_true_iff {k : PrimaryKey} : c.ridesOnColumn k = true ↔
    ∃ n, k.columns = [n] ∧ ∃ x ∈ c.columns.rows, Row.key x = .scoped k.table n ∧
      x.autoIncrement = true := by
  simp [ridesOnColumn, column?, Option.any_eq_true, PrimaryKey.soleColumn?_eq_some_iff,
    Collection.get?_eq_some_iff, and_assoc]

theorem isSoleKey_eq_true_iff {x : Column} : c.isSoleKey x = true ↔
    ∃ k ∈ c.primaryKeys.rows, k.table = x.table ∧ k.columns = [x.name] := by
  simp only [isSoleKey, primaryKeyOf?, beq_iff_eq, Option.bind_eq_some_iff,
    Collection.get?_eq_some_iff, PrimaryKey.soleColumn?_eq_some_iff, and_assoc]
  exact exists_congr fun k => and_congr_right fun _ => and_congr_left fun _ =>
    ⟨Key.single.inj, congrArg Key.single⟩

end Catalog

namespace PlanInput

variable {p : PlanInput}

theorem mem_statements {s : Statement} : s ∈ p.statements ↔ s ∈ p.scheduled :=
  Statement.mem_ordered

theorem nodup_statements (p : PlanInput) : p.statements.Nodup :=
  Statement.nodup_ordered _

theorem count_statements {s : Statement} (h : s ∈ p.statements) : p.statements.count s = 1 :=
  List.count_eq_one_of_mem p.nodup_statements h

theorem drops_iff {t : String} :
    p.drops t = true ↔ ∃ x ∈ p.difference.tables.dropped, x.name = t := by
  simp [drops]

theorem creates_iff {t : String} :
    p.creates t = true ↔ ∃ x ∈ p.difference.tables.created, x.name = t := by
  simp [creates]

/-! ## Statements whose form depends on their row -/

theorem dropForeignKey_eq (k : ForeignKey) :
    p.dropForeignKey k = .dropConstraint (p.renames.formerTable k.table) k.name .foreignKey :=
  rfl

/-- A foreign key refers to exactly the columns of a primary key whose columns change. -/
def Rebuilds (p : PlanInput) (k : ForeignKey) : Prop :=
  ∃ a ∈ p.alterations.primaryKeys, ∃ d, a.change .columns = some d ∧
    k ∈ p.referringTo a.left.table d.before

/-- A foreign key is dropped by itself. -/
def Releases (p : PlanInput) (k : ForeignKey) : Prop :=
  (k ∈ p.difference.foreignKeys.dropped ∧
      (p.drops k.table = false ∨ k.target ≠ k.table ∧ p.drops k.target = true)) ∨
    (∃ a ∈ p.alterations.foreignKeys, a.left = k) ∨ p.Rebuilds k

theorem mem_rebuild {a : PrimaryKeyAlteration} {s : Statement} :
    s ∈ p.rebuild a ↔ ∃ d, a.change .columns = some d ∧ ∃ k ∈ p.referringTo a.left.table d.before,
      p.dropForeignKey k = s ∨
        ∃ t, p.target.foreignKeys.get? (.scoped k.table k.name) = some t ∧
          .createForeignKey t = s := by
  unfold rebuild
  cases h : a.change .columns with
  | none => simp
  | some d => simp [Option.map_eq_some_iff, eq_comm (a := s)]

theorem createPrimaryKey?_eq_some_iff {k : PrimaryKey} {s : Statement} :
    p.createPrimaryKey? k = some s ↔
      (p.target.ridesOnColumn k = false ∧ .createPrimaryKey k = s) ∨
      (p.target.ridesOnColumn k = true ∧ ∃ name left right, k.soleColumn? = some name ∧
        p.coversColumn k.table name = false ∧ p.source.column? k.table name = some left ∧
        p.target.column? k.table name = some right ∧
        .alterColumn (.unchanged left right) right (p.isKey right) (p.wasKey right) = s) := by
  unfold createPrimaryKey?
  cases hr : p.target.ridesOnColumn k with
  | false => simp
  | true =>
    simp only [if_true, Option.bind_eq_some_iff, true_and, Bool.true_eq_false, false_and, false_or]
    refine exists_congr fun name => ?_
    cases hc : p.coversColumn k.table name with
    | true => simp
    | false =>
      cases hl : p.source.column? k.table name <;>
        cases ht : p.target.column? k.table name <;> simp

attribute [local simp] mem_statements scheduled tableStatements columnStatements
  primaryKeyStatements indexStatements foreignKeyStatements checkStatements viewStatements
  alterColumn alterView dropPrimaryKey? dropCheck dropForeignKey_eq mem_rebuild
  createPrimaryKey?_eq_some_iff ite_eq_iff

/-! ## Tables -/

theorem mem_createTable {d : TableDefinition} :
    .createTable d ∈ p.statements ↔ ∃ t ∈ p.difference.tables.created, p.definition t.name = d := by
  simp

theorem mem_dropTable {t : String} : .dropTable t ∈ p.statements ↔ p.drops t = true := by
  simp [drops]

theorem mem_renameTable {old new : String} :
    .renameTable old new ∈ p.statements ↔
      ∃ r ∈ p.renames.tables, r.old.name = old ∧ r.new.name = new := by
  simp

/-! ## Columns -/

theorem mem_renameColumn {t old new : String} :
    .renameColumn t old new ∈ p.statements ↔
      ∃ r ∈ p.renames.columns, r.new.table = t ∧ r.old.name = old ∧ r.new.name = new := by
  simp

theorem mem_addColumn {c : Column} {isKey : Bool} :
    .addColumn c isKey ∈ p.statements ↔
      c ∈ p.difference.columns.created ∧ p.creates c.table = false ∧ p.isKey c = isKey := by
  simp [and_assoc]

theorem mem_dropColumn {c : Column} :
    .dropColumn c ∈ p.statements ↔
      c ∈ p.difference.columns.dropped ∧ p.drops c.table = false := by
  simp

theorem mem_recreateColumn {c : Column} {isKey : Bool} :
    .recreateColumn c isKey ∈ p.statements ↔ ∃ a ∈ p.alterations.columns,
      (a.change .generated).any Generated.needsNewColumn = true ∧ a.right = c ∧
        p.isKey a.right = isKey := by
  simp

theorem mem_alterColumn {a : ColumnAlteration} {c : Column} {isKey wasKey : Bool} :
    .alterColumn a c isKey wasKey ∈ p.statements ↔
      (a ∈ p.alterations.columns ∧ (a.change .generated).any Generated.needsNewColumn = false ∧
        a.right = c ∧ p.isKey c = isKey ∧ p.wasKey c = wasKey) ∨
      ∃ k, ((k ∈ p.difference.primaryKeys.created ∧ p.creates k.table = false) ∨
          ∃ b ∈ p.alterations.primaryKeys, b.right = k) ∧
        p.createPrimaryKey? k = some (.alterColumn a c isKey wasKey) := by
  simp
  grind

/-! ## Primary keys -/

theorem mem_createPrimaryKey {k : PrimaryKey} :
    .createPrimaryKey k ∈ p.statements ↔
      ((k ∈ p.difference.primaryKeys.created ∧ p.creates k.table = false) ∨
          ∃ a ∈ p.alterations.primaryKeys, a.right = k) ∧
        p.target.ridesOnColumn k = false := by
  simp
  grind

theorem mem_dropPrimaryKey {k : PrimaryKey} :
    .dropPrimaryKey k ∈ p.statements ↔
      ((k ∈ p.difference.primaryKeys.dropped ∧ p.drops k.table = false) ∨
          ∃ a ∈ p.alterations.primaryKeys, a.left = k) ∧
        p.source.ridesOnColumn k = false := by
  simp
  grind

/-! ## Indexes -/

theorem mem_createIndex {i : Index} :
    .createIndex i ∈ p.statements ↔
      (i ∈ p.difference.indexes.created ∧ (p.creates i.table && i.isUnique) = false) ∨
        ∃ a ∈ p.alterations.indexes, a.right = i := by
  simp
  grind

theorem mem_dropIndex {i : Index} :
    .dropIndex i ∈ p.statements ↔
      (i ∈ p.difference.indexes.dropped ∧ p.drops i.table = false) ∨
        ∃ a ∈ p.alterations.indexes, a.left = i := by
  simp
  grind

/-! ## Foreign keys -/

/-- A foreign key is dropped under the name that its table has before renames. -/
theorem mem_dropForeignKey {t n : String} :
    .dropConstraint t n .foreignKey ∈ p.statements ↔
      ∃ k, p.Releases k ∧ p.renames.formerTable k.table = t ∧ k.name = n := by
  simp [Releases, Rebuilds]
  grind

theorem mem_createForeignKey {k : ForeignKey} :
    .createForeignKey k ∈ p.statements ↔
      (k ∈ p.difference.foreignKeys.created ∧
          (p.creates k.table = false ∨ p.defersForeignKeys = true)) ∨
        (∃ a ∈ p.alterations.foreignKeys, a.right = k) ∨
        ∃ l, p.Rebuilds l ∧ p.target.foreignKeys.get? (.scoped l.table l.name) = some k := by
  simp [Rebuilds]
  grind

/-! ## Checks -/

theorem mem_createCheck {k : Check} :
    .createCheck k ∈ p.statements ↔
      (k ∈ p.difference.checks.created ∧ p.creates k.table = false) ∨
        ∃ a ∈ p.alterations.checks, a.right = k := by
  simp
  grind

theorem mem_dropCheck {t n : String} :
    .dropConstraint t n .check ∈ p.statements ↔
      ∃ k, ((k ∈ p.difference.checks.dropped ∧ p.drops k.table = false) ∨
          ∃ a ∈ p.alterations.checks, a.left = k) ∧ k.table = t ∧ k.name = n := by
  simp
  grind

/-! ## Views -/

theorem mem_dropView {n : String} :
    .dropView n ∈ p.statements ↔ ∃ v ∈ p.difference.views.dropped, v.name = n := by
  simp

theorem mem_renameView {old new : String} :
    .renameView old new ∈ p.statements ↔
      ∃ r ∈ p.renames.views, r.old.name = old ∧ r.new.name = new := by
  simp

theorem mem_alterView {v : View} :
    .alterView v ∈ p.statements ↔
      ∃ a ∈ p.alterations.views, (a.change .definition).isSome = false ∧ a.right = v := by
  simp

theorem mem_createView {v : View} {replaces : Bool} :
    .createView v replaces ∈ p.statements ↔
      (replaces = true ∧ ∃ a ∈ p.alterations.views,
          (a.change .definition).isSome = true ∧ a.right = v) ∨
        replaces = false ∧ v ∈ p.difference.views.created := by
  simp
  grind

end PlanInput

end SchemaEvolution
