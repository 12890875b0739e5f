import Mathlib.Data.List.Sort
import Mathlib.Data.Multiset.MapFold
import SchemaEvolution.Proofs.SameRows
import SchemaEvolution.Proofs.Scheduled

/-!
# The order of rows

A catalog lists its rows in some order, but a row is found by its key. So catalogs with the same
rows in another order have the same differences up to order, and what is planned for a row does not
depend on where it stands.

**Plans from reordered rows** (`PlanInput.Reorders`) hold the same statements. Only the definition
of a created table lists rows itself, so there the lists have another order
(`PlanInput.mem_statements_iff`).

**Theorem (`Migration.reordered`).** Without renames, the migrations between the same rows in two
orders have the same statements up to order, and statements of the same kinds one after the other.
The second part holds because statements are sorted by phase, and the phase tells the kind.
-/

namespace SchemaEvolution

/-! ## Statements up to order -/

/-- Definitions of a table that differ in the order of their lists only. -/
structure TableDefinition.Alike (d e : TableDefinition) : Prop where
  name : d.name = e.name
  columns : d.columns.Perm e.columns
  primaryKey : d.primaryKey = e.primaryKey
  foreignKeys : d.foreignKeys.Perm e.foreignKeys
  uniques : d.uniques.Perm e.uniques
  checks : d.checks.Perm e.checks

/-- Statements that are equal, or create a table by definitions that are alike. -/
def Statement.Alike : Statement → Statement → Prop
  | .createTable d, .createTable e => d.Alike e
  | s, t => s = t

/-- The kind of the statements of a phase. -/
def Phase.kind : Phase → StatementKind
  | .createTables => .createTable
  | .dropForeignKeys => .dropConstraint
  | .dropTables => .dropTable
  | .renameTables => .renameTable
  | .renameColumns => .renameColumn
  | .dropViews => .dropView
  | .renameViews => .renameView
  | .alterViews => .alterView
  | .dropChecks => .dropConstraint
  | .dropIndexes => .dropIndex
  | .dropPrimaryKeys => .dropPrimaryKey
  | .alterColumns => .alterColumn
  | .recreateColumns => .recreateColumn
  | .addColumns => .addColumn
  | .createPrimaryKeys => .createPrimaryKey
  | .createIndexes => .createIndex
  | .createForeignKeys => .createForeignKey
  | .createChecks => .createCheck
  | .dropColumns => .dropColumn
  | .createViews => .createView

theorem Statement.kind_eq (s : Statement) : s.kind = s.phase.kind := by
  cases s with
  | dropConstraint t n sort => cases sort <;> rfl
  | _ => rfl

theorem Phase.eq_of_rank_eq {p q : Phase} (h : p.rank = q.rank) : p = q :=
  List.idxOf_inj (Phase.mem_all p) |>.1 h

/-- **Ordered statements of the same phases, as often, are of the same kinds one by one.** -/
theorem Statement.map_kind_ordered {ss ts : List Statement}
    (h : ((ordered ss).map phase).Perm ((ordered ts).map phase)) :
    (ordered ss).map kind = (ordered ts).map kind := by
  have hsorted (ss : List Statement) :
      ((ordered ss).map phase).Pairwise fun p q => p.rank ≤ q.rank :=
    List.pairwise_map.2 (pairwise_ordered ss)
  have hphases : (ordered ss).map phase = (ordered ts).map phase :=
    h.eq_of_pairwise (fun p q _ _ hpq hqp => Phase.eq_of_rank_eq (Nat.le_antisymm hpq hqp))
      (hsorted ss) (hsorted ts)
  have hkinds (ss : List Statement) : ss.map kind = (ss.map phase).map Phase.kind := by
    rw [List.map_map]
    exact List.map_congr_left fun s _ => kind_eq s
  rw [hkinds, hkinds, hphases]

/-! ## Reordered collections -/

section

variable {α φ : Type} {ν : φ → Type}

/-- Differences with the same rows and alterations in another order. -/
structure Difference.Reorders (d e : Difference α ν) : Prop where
  created : d.created.Perm e.created
  dropped : d.dropped.Perm e.dropped
  altered : d.altered.Perm e.altered

namespace Collection

variable [Row α] {c c' d d' : Collection α}

theorem get?_of_perm (h : c.rows.Perm d.rows) (k : Key) : c.get? k = d.get? k :=
  Option.ext fun x => by rw [get?_eq_some_iff, get?_eq_some_iff, h.mem_iff]

theorem hasKey_of_perm (h : c.rows.Perm d.rows) (k : Key) : c.hasKey k = d.hasKey k := by
  rw [hasKey, hasKey, get?_of_perm h]

theorem difference_reorders [Attributed α φ ν] (hc : c.rows.Perm c'.rows)
    (hd : d.rows.Perm d'.rows) : (c.difference d).Reorders (c'.difference d') where
  created := by
    simp only [difference, hasKey_of_perm hc]
    exact hd.filter _
  dropped := by
    simp only [difference, hasKey_of_perm hd]
    exact hc.filter _
  altered := by
    simp only [difference, get?_of_perm hc]
    exact hd.filterMap _

end Collection

end

/-! ## Reordered catalogs -/

namespace Catalog

/-- Catalogs with the same rows in another order. -/
structure Reorders (c d : Catalog) : Prop where
  tables : c.tables.rows.Perm d.tables.rows
  columns : c.columns.rows.Perm d.columns.rows
  primaryKeys : c.primaryKeys.rows.Perm d.primaryKeys.rows
  foreignKeys : c.foreignKeys.rows.Perm d.foreignKeys.rows
  indexes : c.indexes.rows.Perm d.indexes.rows
  checks : c.checks.rows.Perm d.checks.rows
  views : c.views.rows.Perm d.views.rows

theorem reorders_of_sameRows {c d : Catalog} (h : c.sameRows d = true) : c.Reorders d := by
  simp only [sameRows, Bool.and_eq_true, Collection.sameRows_iff_perm] at h
  obtain ⟨⟨⟨⟨⟨⟨⟨ht, hc⟩, hp⟩, hf⟩, hi⟩, hk⟩, hv⟩, -⟩ := h
  exact ⟨ht, hc, hp, hf, hi, hk, hv⟩

namespace Reorders

variable {c d : Catalog} (h : c.Reorders d)
include h

theorem column?_eq : c.column? = d.column? :=
  funext fun _ => funext fun _ => Collection.get?_of_perm h.columns _

theorem primaryKeyOf?_eq : c.primaryKeyOf? = d.primaryKeyOf? :=
  funext fun _ => Collection.get?_of_perm h.primaryKeys _

theorem ridesOnColumn_eq : c.ridesOnColumn = d.ridesOnColumn :=
  funext fun k => by rw [ridesOnColumn, ridesOnColumn, h.column?_eq]

theorem isSoleKey_eq : c.isSoleKey = d.isSoleKey :=
  funext fun x => by rw [isSoleKey, isSoleKey, h.primaryKeyOf?_eq]

theorem inPrimaryKey_eq : Comparison.inPrimaryKey c = Comparison.inPrimaryKey d :=
  funext fun x => by rw [Comparison.inPrimaryKey, Comparison.inPrimaryKey, h.primaryKeyOf?_eq]

end Reorders

end Catalog

/-! ## Plans from reordered rows -/

namespace PlanInput

/-- Plans made from the same rows and alterations in another order. -/
structure Reorders (p q : PlanInput) : Prop where
  source : p.source.Reorders q.source
  target : p.target.Reorders q.target
  tables : p.difference.tables.Reorders q.difference.tables
  columns : p.difference.columns.Reorders q.difference.columns
  primaryKeys : p.difference.primaryKeys.Reorders q.difference.primaryKeys
  foreignKeys : p.difference.foreignKeys.Reorders q.difference.foreignKeys
  indexes : p.difference.indexes.Reorders q.difference.indexes
  checks : p.difference.checks.Reorders q.difference.checks
  views : p.difference.views.Reorders q.difference.views
  alteredColumns : p.alterations.columns.Perm q.alterations.columns
  alteredPrimaryKeys : p.alterations.primaryKeys.Perm q.alterations.primaryKeys
  alteredForeignKeys : p.alterations.foreignKeys.Perm q.alterations.foreignKeys
  alteredIndexes : p.alterations.indexes.Perm q.alterations.indexes
  alteredChecks : p.alterations.checks.Perm q.alterations.checks
  alteredViews : p.alterations.views.Perm q.alterations.views
  renames : p.renames = q.renames

namespace Reorders

variable {p q : PlanInput} (h : p.Reorders q)
include h

theorem creates_eq : p.creates = q.creates :=
  funext fun _ => h.tables.created.any_eq

theorem drops_eq : p.drops = q.drops :=
  funext fun _ => h.tables.dropped.any_eq

theorem defersForeignKeys_eq : p.defersForeignKeys = q.defersForeignKeys := by
  simp only [defersForeignKeys, h.tables.created.any_eq]

theorem isKey_eq : p.isKey = q.isKey :=
  funext fun c => by rw [isKey, isKey, h.target.isSoleKey_eq]

theorem wasKey_eq : p.wasKey = q.wasKey :=
  funext fun c => by rw [wasKey, wasKey, h.source.isSoleKey_eq, h.target.isSoleKey_eq]

theorem coversColumn_eq : p.coversColumn = q.coversColumn :=
  funext fun t => funext fun n => by
    rw [coversColumn, coversColumn, h.columns.created.any_eq, h.alteredColumns.any_eq]

theorem createPrimaryKey?_eq : p.createPrimaryKey? = q.createPrimaryKey? :=
  funext fun k => by
    unfold createPrimaryKey?
    rw [h.target.ridesOnColumn_eq, h.coversColumn_eq, h.source.column?_eq, h.target.column?_eq,
      h.isKey_eq, h.wasKey_eq]

theorem definition_alike (t : String) : (p.definition t).Alike (q.definition t) where
  name := rfl
  columns := h.target.columns.filter _
  primaryKey := congrFun h.target.primaryKeyOf?_eq t
  foreignKeys := by
    unfold definition
    dsimp only
    rw [h.defersForeignKeys_eq]
    split
    · exact .refl _
    · exact h.target.foreignKeys.filter _
  uniques := h.target.indexes.filter _
  checks := h.target.checks.filter _

theorem rebuilds_iff {k : ForeignKey} : p.Rebuilds k ↔ q.Rebuilds k := by
  have hk (t : String) (cs : List String) : k ∈ p.referringTo t cs ↔ k ∈ q.referringTo t cs := by
    rw [referringTo, referringTo, h.drops_eq]
    exact (h.source.foreignKeys.filter _).mem_iff
  simp only [Rebuilds, h.alteredPrimaryKeys.mem_iff, hk]

theorem releases_iff {k : ForeignKey} : p.Releases k ↔ q.Releases k := by
  simp only [Releases, h.foreignKeys.dropped.mem_iff, h.drops_eq, h.alteredForeignKeys.mem_iff,
    h.rebuilds_iff]

/-- All statements but definitions of tables are planned from rows in any order. -/
theorem mem_statements_iff {s : Statement} (hs : ∀ d, s ≠ .createTable d) :
    s ∈ p.statements ↔ s ∈ q.statements := by
  cases s with
  | createTable d => exact absurd rfl (hs d)
  | dropTable t => rw [mem_dropTable, mem_dropTable, h.drops_eq]
  | renameTable old new => rw [mem_renameTable, mem_renameTable, h.renames]
  | addColumn c isKey =>
    rw [mem_addColumn, mem_addColumn, h.columns.created.mem_iff, h.creates_eq, h.isKey_eq]
  | dropColumn c => rw [mem_dropColumn, mem_dropColumn, h.columns.dropped.mem_iff, h.drops_eq]
  | renameColumn t old new => rw [mem_renameColumn, mem_renameColumn, h.renames]
  | alterColumn a c isKey wasKey =>
    simp only [mem_alterColumn, h.alteredColumns.mem_iff, h.isKey_eq, h.wasKey_eq,
      h.primaryKeys.created.mem_iff, h.creates_eq, h.alteredPrimaryKeys.mem_iff,
      h.createPrimaryKey?_eq]
  | recreateColumn c isKey =>
    simp only [mem_recreateColumn, h.alteredColumns.mem_iff, h.isKey_eq]
  | createIndex i =>
    simp only [mem_createIndex, h.indexes.created.mem_iff, h.creates_eq, h.alteredIndexes.mem_iff]
  | dropIndex i =>
    simp only [mem_dropIndex, h.indexes.dropped.mem_iff, h.drops_eq, h.alteredIndexes.mem_iff]
  | createForeignKey k =>
    simp only [mem_createForeignKey, h.foreignKeys.created.mem_iff, h.creates_eq,
      h.defersForeignKeys_eq, h.alteredForeignKeys.mem_iff, h.rebuilds_iff,
      Collection.get?_of_perm h.target.foreignKeys]
  | dropConstraint t n sort =>
    cases sort with
    | foreignKey => simp only [mem_dropForeignKey, h.releases_iff, h.renames]
    | check =>
      simp only [mem_dropCheck, h.checks.dropped.mem_iff, h.drops_eq, h.alteredChecks.mem_iff]
  | createPrimaryKey k =>
    simp only [mem_createPrimaryKey, h.primaryKeys.created.mem_iff, h.creates_eq,
      h.alteredPrimaryKeys.mem_iff, h.target.ridesOnColumn_eq]
  | dropPrimaryKey k =>
    simp only [mem_dropPrimaryKey, h.primaryKeys.dropped.mem_iff, h.drops_eq,
      h.alteredPrimaryKeys.mem_iff, h.source.ridesOnColumn_eq]
  | createCheck k =>
    simp only [mem_createCheck, h.checks.created.mem_iff, h.creates_eq, h.alteredChecks.mem_iff]
  | createView v replaces =>
    simp only [mem_createView, h.alteredViews.mem_iff, h.views.created.mem_iff]
  | alterView v => simp only [mem_alterView, h.alteredViews.mem_iff]
  | dropView n => simp only [mem_dropView, h.views.dropped.mem_iff]
  | renameView old new => rw [mem_renameView, mem_renameView, h.renames]

end Reorders

/-- The statement with the definition of a created table as the plan has it. -/
def redefine (p : PlanInput) : Statement → Statement
  | .createTable d => .createTable (p.definition d.name)
  | s => s

theorem redefine_of_ne (p : PlanInput) {s : Statement} (hs : ∀ d, s ≠ .createTable d) :
    p.redefine s = s := by
  cases s with
  | createTable d => exact absurd rfl (hs d)
  | _ => rfl

theorem phase_redefine (p : PlanInput) (s : Statement) : (p.redefine s).phase = s.phase := by
  cases s <;> rfl

theorem eq_createTable_of_redefine {p : PlanInput} {s : Statement} {d : TableDefinition}
    (h : p.redefine s = .createTable d) : ∃ e, s = .createTable e ∧ p.definition e.name = d := by
  cases s with
  | createTable e => exact ⟨e, rfl, Statement.createTable.inj h⟩
  | _ => cases h

namespace Reorders

variable {p q : PlanInput} (h : p.Reorders q)
include h

theorem alike_redefine {s : Statement} (hs : s ∈ p.statements) : s.Alike (q.redefine s) := by
  cases s with
  | createTable d =>
    obtain ⟨t, -, rfl⟩ := mem_createTable.1 hs
    exact h.definition_alike t.name
  | _ => exact rfl

/-- What a plan calls for is what the other plan calls for, by its own definitions of tables. -/
theorem mem_iff {s : Statement} : s ∈ p.statements.map q.redefine ↔ s ∈ q.statements := by
  by_cases hs : ∃ d, s = .createTable d
  · obtain ⟨d, rfl⟩ := hs
    rw [List.mem_map, mem_createTable]
    constructor
    · intro h'
      obtain ⟨r, hr, e⟩ := h'
      obtain ⟨d', rfl, rfl⟩ := eq_createTable_of_redefine e
      obtain ⟨t, ht, rfl⟩ := mem_createTable.1 hr
      exact ⟨t, h.tables.created.mem_iff.1 ht, rfl⟩
    · intro h'
      obtain ⟨t, ht, rfl⟩ := h'
      exact ⟨_, mem_createTable.2 ⟨t, h.tables.created.mem_iff.2 ht, rfl⟩, rfl⟩
  · push Not at hs
    rw [← h.mem_statements_iff hs, List.mem_map]
    constructor
    · intro h'
      obtain ⟨r, hr, rfl⟩ := h'
      have hr' : ∀ d, r ≠ .createTable d := fun d e => hs (q.definition d.name) (e ▸ rfl)
      rwa [q.redefine_of_ne hr']
    · exact fun h' => ⟨s, h', q.redefine_of_ne hs⟩

/-- **Reordered rows give the same statements up to order.** -/
theorem perm_statements : (p.statements.map q.redefine).Perm q.statements := by
  refine (List.perm_ext_iff_of_nodup ?_ q.nodup_statements).2 fun s => h.mem_iff
  refine p.nodup_statements.map_on fun s hs t ht e => ?_
  cases s with
  | createTable d =>
    obtain ⟨d', rfl, hd⟩ := eq_createTable_of_redefine e.symm
    obtain ⟨x, -, rfl⟩ := mem_createTable.1 hs
    obtain ⟨y, -, rfl⟩ := mem_createTable.1 ht
    -- The name in a definition tells which table is defined.
    have hname := congrArg TableDefinition.name hd
    change y.name = x.name at hname
    rw [hname]
  | _ =>
    have ht' : ∀ d, t ≠ .createTable d := fun d e' => by rw [e'] at e; cases e
    rwa [q.redefine_of_ne ht'] at e

theorem rel_statements : Multiset.Rel Statement.Alike p.statements q.statements := by
  rw [← Multiset.coe_eq_coe.2 h.perm_statements, ← Multiset.map_coe q.redefine,
    Multiset.rel_map_right]
  exact Multiset.rel_refl_of_refl_on fun s hs => h.alike_redefine (Multiset.mem_coe.1 hs)

theorem map_kind_statements :
    p.statements.map Statement.kind = q.statements.map Statement.kind := by
  refine Statement.map_kind_ordered ?_
  have hphase := h.perm_statements.map Statement.phase
  rw [List.map_map] at hphase
  exact (List.map_congr_left fun s _ => q.phase_redefine s) ▸ hphase

end Reorders

end PlanInput

/-! ## Reordered schemas -/

/-- Plans between the same rows in another order. -/
theorem Settled.reorders_plan (mode : Mode) {source source' target target' : Catalog}
    (hs : source.Reorders source') (ht : target.Reorders target') :
    (Settled.plan mode ⟨⟨source, target⟩, {}⟩).Reorders
      (Settled.plan mode ⟨⟨source', target'⟩, {}⟩) where
  source := hs
  target := ht
  tables := Collection.difference_reorders hs.tables ht.tables
  columns := Collection.difference_reorders hs.columns ht.columns
  primaryKeys := Collection.difference_reorders hs.primaryKeys ht.primaryKeys
  foreignKeys := Collection.difference_reorders hs.foreignKeys ht.foreignKeys
  indexes := Collection.difference_reorders hs.indexes ht.indexes
  checks := Collection.difference_reorders hs.checks ht.checks
  views := Collection.difference_reorders hs.views ht.views
  alteredColumns := by
    have hR : Comparison.redundantBetween mode source target =
        Comparison.redundantBetween mode source' target' := funext fun a => by
      rw [Comparison.redundantBetween, Comparison.redundantBetween, hs.inPrimaryKey_eq,
        ht.inPrimaryKey_eq]
    have ha := (Collection.difference_reorders (α := Column) hs.columns ht.columns).altered
    simp only [Settled.plan, Alterations.prune, hR]
    exact ha.filterMap _
  alteredPrimaryKeys :=
    (Collection.difference_reorders hs.primaryKeys ht.primaryKeys).altered.filterMap _
  alteredForeignKeys :=
    (Collection.difference_reorders hs.foreignKeys ht.foreignKeys).altered.filterMap _
  alteredIndexes := (Collection.difference_reorders hs.indexes ht.indexes).altered.filterMap _
  alteredChecks := (Collection.difference_reorders hs.checks ht.checks).altered.filterMap _
  alteredViews := (Collection.difference_reorders hs.views ht.views).altered.filterMap _
  renames := rfl

namespace Migration

/-- **The order of rows does not matter.** Without renames, the migrations between the same rows in
two orders have statements that are alike up to order, of the same kinds one after the other. -/
theorem reordered {σ : Type} (options : MigrationOptions) {source source' target target' : Catalog}
    (hs : source.sameRows source' = true) (ht : target.sameRows target' = true) (a : σ) :
    ∃ m m', Returns (between (.never : Resolver (StateM σ)) options source target) a m a ∧
      Returns (between (.never : Resolver (StateM σ)) options source' target') a m' a ∧
      Multiset.Rel Statement.Alike m.statements m'.statements ∧
      m.statements.map Statement.kind = m'.statements.map Statement.kind := by
  have h := Settled.reorders_plan options.mode (Catalog.reorders_of_sameRows hs)
    (Catalog.reorders_of_sameRows ht)
  refine ⟨_, _, returns_between options (Sides.returns_settle_never ⟨source, target⟩ a),
    returns_between options (Sides.returns_settle_never ⟨source', target'⟩ a), ?_, ?_⟩
  · rw [statements_ofSettled, statements_ofSettled]
    exact h.rel_statements
  · rw [statements_ofSettled, statements_ofSettled]
    exact h.map_kind_statements

/-- A table with a primary key, to which a key of another table refers. -/
def orderRows : List Entity :=
  [.table ⟨"orders"⟩, .table ⟨"items"⟩, .column { table := "orders", name := "id", type := "int" },
    .column { table := "orders", name := "code", type := "int" },
    .column { table := "items", name := "order", type := "int" },
    .primaryKey (.implicit "orders" ["id"]),
    .foreignKey (.implicit "items" ["order"] "orders" ["id"])]

/-- The same tables with another primary key, and a new table. -/
def shippedRows : List Entity :=
  [.table ⟨"orders"⟩, .table ⟨"items"⟩, .table ⟨"parcels"⟩,
    .column { table := "orders", name := "id", type := "int" },
    .column { table := "orders", name := "code", type := "bigint" },
    .column { table := "items", name := "order", type := "int", notNull := true },
    .column { table := "parcels", name := "id", type := "int" },
    .column { table := "parcels", name := "order", type := "int" },
    .primaryKey (.implicit "orders" ["code"]),
    .foreignKey (.implicit "items" ["order"] "orders" ["id"]),
    .foreignKey (.implicit "parcels" ["order"] "orders" ["id"]),
    .check ⟨"parcels", "positive", false, "id > 0"⟩]

theorem reordered_of_orders :
    (Catalog.ofEntitiesLoose orderRows).sameRows (Catalog.ofEntitiesLoose orderRows.reverse) =
        true ∧
      (Catalog.ofEntitiesLoose shippedRows).sameRows
          (Catalog.ofEntitiesLoose shippedRows.reverse) = true ∧
      ∃ m m', Returns (between (.never : Resolver (StateM Unit)) {}
          (Catalog.ofEntitiesLoose orderRows) (Catalog.ofEntitiesLoose shippedRows)) () m () ∧
        Returns (between (.never : Resolver (StateM Unit)) {}
          (Catalog.ofEntitiesLoose orderRows.reverse)
          (Catalog.ofEntitiesLoose shippedRows.reverse)) () m' () ∧
        Multiset.Rel Statement.Alike m.statements m'.statements ∧
        m.statements.map Statement.kind = m'.statements.map Statement.kind := by
  have hs : (Catalog.ofEntitiesLoose orderRows).sameRows
      (Catalog.ofEntitiesLoose orderRows.reverse) = true := by decide
  have ht : (Catalog.ofEntitiesLoose shippedRows).sameRows
      (Catalog.ofEntitiesLoose shippedRows.reverse) = true := by decide
  exact ⟨hs, ht, reordered {} hs ht ()⟩

end Migration

end SchemaEvolution
