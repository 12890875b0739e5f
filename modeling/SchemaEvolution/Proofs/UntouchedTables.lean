import SchemaEvolution.Proofs.RebuiltKeys
import SchemaEvolution.Proofs.WithoutRenames

/-!
# Unchanged tables are left alone

Whatever else changes in a schema, a table with the same rows on both sides gets hardly any
statements.

**Rows of the table** are neither created nor dropped nor altered (`Collection.AgreeOn`), so no
statement is scheduled for their own sake, and its primary key comes to ride on no column.

**Theorem (`Migration.unchanged_tables_untouched`).** Without renames, in either mode, the
statements on a table with the same rows on both sides are those that drop and create its foreign
keys on primary keys whose columns change: each such foreign key is dropped and created, and nothing
else happens to the table.
-/

namespace SchemaEvolution

/-! ## Rows on which collections agree -/

namespace Collection

variable {α φ : Type} {ν : φ → Type} [Row α] [Attributed α φ ν] {c d : Collection α}
  {P : Key → Prop} {x : α} {k : Key}

/-- Two collections have the same rows under some keys. -/
def AgreeOn (P : Key → Prop) (c d : Collection α) : Prop :=
  ∀ x : α, P (Row.key x) → (x ∈ c.rows ↔ x ∈ d.rows)

theorem AgreeOn.not_created (h : AgreeOn P c d) (hx : x ∈ (c.difference d).created) :
    ¬P (Row.key x) := by
  intro hp
  obtain ⟨hd, hno⟩ := mem_created_iff.1 hx
  rw [hasKey_key ((h x hp).2 hd)] at hno
  cases hno

theorem AgreeOn.not_dropped (h : AgreeOn P c d) (hx : x ∈ (c.difference d).dropped) :
    ¬P (Row.key x) := by
  intro hp
  obtain ⟨hc, hno⟩ := mem_dropped_iff.1 hx
  rw [hasKey_key ((h x hp).1 hc)] at hno
  cases hno

theorem AgreeOn.not_altersAt {R : Redundancy α ν} (h : AgreeOn P c d) (hp : P k) :
    ¬AltersAt R c d k := by
  intro h'
  obtain ⟨l, hl, r, hr, rfl, hk, a, ha⟩ := h'
  obtain rfl := eq_of_key_eq ((h l hp).1 hl) hr hk.symm
  rw [Alteration.effective?_self] at ha
  cases ha

theorem AgreeOn.not_left {R : Redundancy α ν} {alts : List (Alteration α ν)} (h : AgreeOn P c d)
    (ha : ∀ a, a ∈ alts ↔ ∃ l ∈ c.rows, ∃ r ∈ d.rows, Row.key l = Row.key r ∧
      Alteration.effective? R l r = some a) (hx : ∃ a ∈ alts, a.left = x) : ¬P (Row.key x) :=
  fun hp => h.not_altersAt hp ((exists_left_iff ha).1 hx).2

theorem AgreeOn.not_right {R : Redundancy α ν} {alts : List (Alteration α ν)} (h : AgreeOn P c d)
    (ha : ∀ a, a ∈ alts ↔ ∃ l ∈ c.rows, ∃ r ∈ d.rows, Row.key l = Row.key r ∧
      Alteration.effective? R l r = some a) (hx : ∃ a ∈ alts, a.right = x) : ¬P (Row.key x) :=
  fun hp => h.not_altersAt hp ((exists_right_iff ha).1 hx).2

/-- What is created, by itself or in place of an altered row, is nothing that both agree on. -/
theorem AgreeOn.not_new {R : Redundancy α ν} {alts : List (Alteration α ν)} {Q : Prop}
    (h : AgreeOn P c d)
    (ha : ∀ a, a ∈ alts ↔ ∃ l ∈ c.rows, ∃ r ∈ d.rows, Row.key l = Row.key r ∧
      Alteration.effective? R l r = some a)
    (hx : (x ∈ (c.difference d).created ∧ Q) ∨ ∃ a ∈ alts, a.right = x) : ¬P (Row.key x) := by
  rcases hx with ⟨hc, -⟩ | hr
  · exact h.not_created hc
  · exact h.not_right ha hr

/-- What is dropped, by itself or to be altered, is nothing that both agree on. -/
theorem AgreeOn.not_gone {R : Redundancy α ν} {alts : List (Alteration α ν)} {Q : Prop}
    (h : AgreeOn P c d)
    (ha : ∀ a, a ∈ alts ↔ ∃ l ∈ c.rows, ∃ r ∈ d.rows, Row.key l = Row.key r ∧
      Alteration.effective? R l r = some a)
    (hx : (x ∈ (c.difference d).dropped ∧ Q) ∨ ∃ a ∈ alts, a.left = x) : ¬P (Row.key x) := by
  rcases hx with ⟨hd, -⟩ | hl
  · exact h.not_dropped hd
  · exact h.not_left ha hl

end Collection

/-! ## Tables with the same rows -/

namespace Catalog

/-- A table has the same rows in two catalogs. -/
structure SameTable (c d : Catalog) (t : String) : Prop where
  columns : ∀ x : Column, x.table = t → (x ∈ c.columns.rows ↔ x ∈ d.columns.rows)
  primaryKeys : ∀ k : PrimaryKey, k.table = t → (k ∈ c.primaryKeys.rows ↔ k ∈ d.primaryKeys.rows)
  foreignKeys : ∀ k : ForeignKey, k.table = t → (k ∈ c.foreignKeys.rows ↔ k ∈ d.foreignKeys.rows)
  indexes : ∀ i : Index, i.table = t → (i ∈ c.indexes.rows ↔ i ∈ d.indexes.rows)
  checks : ∀ k : Check, k.table = t → (k ∈ c.checks.rows ↔ k ∈ d.checks.rows)

/-- A foreign key refers to exactly the former columns of a primary key whose columns change. -/
def RestsOnChangedKey (source target : Catalog) (k : ForeignKey) : Prop :=
  ∃ old ∈ source.primaryKeys.rows, ∃ new ∈ target.primaryKeys.rows, old.table = new.table ∧
    old.columns ≠ new.columns ∧ k.target = old.table ∧ k.targetColumns.Perm old.columns

namespace SameTable

variable {c d : Catalog} {t : String}

open Collection (AgreeOn)

theorem agree_columns (h : c.SameTable d t) : AgreeOn (·.owner = t) c.columns d.columns :=
  h.columns

theorem agree_primaryKeys (h : c.SameTable d t) :
    AgreeOn (·.owner = t) c.primaryKeys d.primaryKeys :=
  h.primaryKeys

theorem agree_foreignKeys (h : c.SameTable d t) :
    AgreeOn (·.owner = t) c.foreignKeys d.foreignKeys :=
  h.foreignKeys

theorem agree_indexes (h : c.SameTable d t) : AgreeOn (·.owner = t) c.indexes d.indexes :=
  h.indexes

theorem agree_checks (h : c.SameTable d t) : AgreeOn (·.owner = t) c.checks d.checks :=
  h.checks

end SameTable

end Catalog

/-! ## Plans -/

namespace Settled

variable {x : Settled} {mode : Mode} {t n : String} {k : ForeignKey}

/-- A foreign key is rebuilt if it rests on a primary key whose columns change, and stays. -/
theorem rebuilds_iff : (x.plan mode).Rebuilds k ↔ k ∈ x.sides.source.foreignKeys.rows ∧
    (x.plan mode).drops k.table = false ∧ x.sides.source.RestsOnChangedKey x.sides.target k := by
  constructor
  · intro h
    refine ⟨mem_source_of_rebuilds h, not_drops_of_rebuilds h, ?_⟩
    obtain ⟨a, ha, d, hd, hk⟩ := h
    obtain ⟨l, hl, r, hr, e, he⟩ := mem_altered_primaryKeys.1 ha
    have hdelta : Delta.between? l.columns r.columns = some d := by
      rw [Alteration.effective?_change he] at hd
      exact (Option.filter_eq_some_iff.1 hd).1
    obtain ⟨hne, rfl⟩ : l.columns ≠ r.columns ∧ ⟨l.columns, r.columns⟩ = d := by
      simpa [Delta.between?] using hdelta
    have hrefers := (List.mem_filter.1 hk).2
    rw [Bool.and_eq_true_iff, Bool.and_eq_true_iff, beq_iff_eq, List.isPerm_iff,
      (Alteration.effective?_sides he).1] at hrefers
    exact ⟨l, hl, r, hr, Key.single.inj e, hne, hrefers.1⟩
  · intro h
    obtain ⟨hk, hd, old, ho, new, hn, ht, hne, hkt, hkc⟩ := h
    exact rebuilds_of_columns_ne ho hn ht hne hk hd hkt hkc

/-- A table that stays, with the same rows on both sides of a plan without renames. -/
structure Untouched (x : Settled) (t : String) : Prop where
  source : x.sides.source.hasTable t = true
  target : x.sides.target.hasTable t = true
  same : x.sides.source.SameTable x.sides.target t
  renames : x.renames = {}

namespace Untouched

variable (h : x.Untouched t)
include h

theorem not_creates (mode : Mode) : (x.plan mode).creates t = false := by
  rw [← Bool.not_eq_true, Settlement.creates_iff, h.source]
  exact fun h' => Bool.noConfusion h'.2

theorem not_drops (mode : Mode) : (x.plan mode).drops t = false := by
  rw [← Bool.not_eq_true, Settlement.drops_iff, h.target]
  exact fun h' => Bool.noConfusion h'.2

theorem not_declared {w : PrimaryKey}
    (hw : (w ∈ (x.plan mode).difference.primaryKeys.created ∧
        (x.plan mode).creates w.table = false) ∨
      ∃ a ∈ (x.plan mode).alterations.primaryKeys, a.right = w) : w.table ≠ t :=
  h.same.agree_primaryKeys.not_new (fun _ => mem_altered_primaryKeys) hw

/-- Statements on the table drop or create a foreign key. -/
theorem about_foreignKey {s : Statement} (hm : s ∈ (x.plan mode).statements)
    (hst : s.table? = some t) :
    (∃ n, s = .dropConstraint t n .foreignKey) ∨ ∃ k, k.table = t ∧ s = .createForeignKey k := by
  cases s with
  | createTable d =>
    obtain ⟨y, hy, rfl⟩ := PlanInput.mem_createTable.1 hm
    have hc := PlanInput.creates_iff.2 ⟨y, hy, Option.some.inj hst⟩
    cases (h.not_creates mode).symm.trans hc
  | dropTable u =>
    obtain rfl := Option.some.inj hst
    cases (h.not_drops mode).symm.trans (PlanInput.mem_dropTable.1 hm)
  | renameTable old new =>
    obtain ⟨r, hr, -⟩ := PlanInput.mem_renameTable.1 hm
    rw [show (x.plan mode).renames = {} from h.renames] at hr
    cases hr
  | addColumn c isKey =>
    exact absurd (Option.some.inj hst)
      (h.same.agree_columns.not_created (PlanInput.mem_addColumn.1 hm).1)
  | dropColumn c =>
    exact absurd (Option.some.inj hst)
      (h.same.agree_columns.not_dropped (PlanInput.mem_dropColumn.1 hm).1)
  | renameColumn u old new =>
    obtain ⟨r, hr, -⟩ := PlanInput.mem_renameColumn.1 hm
    rw [show (x.plan mode).renames = {} from h.renames] at hr
    cases hr
  | alterColumn a c isKey wasKey =>
    obtain ⟨ha, -, hac, -⟩ | ⟨w, hw, hd⟩ := PlanInput.mem_alterColumn.1 hm
    · exact absurd (Option.some.inj hst)
        (h.same.agree_columns.not_right (fun _ => mem_altered_columns) ⟨a, ha, hac⟩)
    · -- The column is one that a declared primary key comes to ride on.
      obtain ⟨-, hd⟩ | ⟨-, name, left, right, -, -, -, hright, hd⟩ :=
        PlanInput.createPrimaryKey?_eq_some_iff.1 hd
      · cases hd
      · obtain ⟨-, rfl, -, -⟩ := Statement.alterColumn.inj hd
        have hc : right.table = w.table :=
          (Key.scoped.inj (Collection.get?_eq_some_iff.1 hright).2).1
        exact absurd (hc.symm.trans (Option.some.inj hst)) (h.not_declared hw)
  | recreateColumn c isKey =>
    obtain ⟨a, ha, -, hac, -⟩ := PlanInput.mem_recreateColumn.1 hm
    exact absurd (Option.some.inj hst)
      (h.same.agree_columns.not_right (fun _ => mem_altered_columns) ⟨a, ha, hac⟩)
  | createIndex i =>
    have hnew := PlanInput.mem_createIndex.1 hm
    exact absurd (Option.some.inj hst)
      (h.same.agree_indexes.not_new (fun _ => mem_altered_indexes) hnew)
  | dropIndex i =>
    have hgone := PlanInput.mem_dropIndex.1 hm
    exact absurd (Option.some.inj hst)
      (h.same.agree_indexes.not_gone (fun _ => mem_altered_indexes) hgone)
  | createForeignKey k => exact .inr ⟨k, Option.some.inj hst, rfl⟩
  | dropConstraint u n sort =>
    obtain rfl := Option.some.inj hst
    cases sort with
    | foreignKey => exact .inl ⟨n, rfl⟩
    | check =>
      obtain ⟨c, hgone, hc, -⟩ := PlanInput.mem_dropCheck.1 hm
      exact absurd hc (h.same.agree_checks.not_gone (fun _ => mem_altered_checks) hgone)
  | createPrimaryKey w =>
    exact absurd (Option.some.inj hst) (h.not_declared (PlanInput.mem_createPrimaryKey.1 hm).1)
  | dropPrimaryKey w =>
    have hgone := (PlanInput.mem_dropPrimaryKey.1 hm).1
    exact absurd (Option.some.inj hst)
      (h.same.agree_primaryKeys.not_gone (fun _ => mem_altered_primaryKeys) hgone)
  | createCheck c =>
    have hnew := PlanInput.mem_createCheck.1 hm
    exact absurd (Option.some.inj hst)
      (h.same.agree_checks.not_new (fun _ => mem_altered_checks) hnew)
  | createView | alterView | dropView | renameView => cases hst

theorem dropForeignKey_iff : .dropConstraint t n .foreignKey ∈ (x.plan mode).statements ↔
    ∃ k ∈ x.sides.source.foreignKeys.rows, k.table = t ∧
      x.sides.source.RestsOnChangedKey x.sides.target k ∧ k.name = n := by
  have hformer : ∀ u, (x.plan mode).renames.formerTable u = u := by
    rw [show (x.plan mode).renames = {} from h.renames]
    exact fun _ => rfl
  rw [PlanInput.mem_dropForeignKey]
  simp only [hformer]
  constructor
  · intro h'
    obtain ⟨k, hr, hk, hn⟩ := h'
    have hrebuilds : (x.plan mode).Rebuilds k := by
      obtain ⟨hd, -⟩ | ha | hr := hr
      · exact absurd hk (h.same.agree_foreignKeys.not_dropped hd)
      · exact absurd hk (h.same.agree_foreignKeys.not_left (fun _ => mem_altered_foreignKeys) ha)
      · exact hr
    obtain ⟨hks, -, hrests⟩ := rebuilds_iff.1 hrebuilds
    exact ⟨k, hks, hk, hrests, hn⟩
  · intro h'
    obtain ⟨k, hks, hk, hrests, hn⟩ := h'
    exact ⟨k, .inr (.inr (rebuilds_iff.2 ⟨hks, hk ▸ h.not_drops mode, hrests⟩)), hk, hn⟩

theorem createForeignKey_iff (hk : k.table = t) :
    .createForeignKey k ∈ (x.plan mode).statements ↔
      k ∈ x.sides.source.foreignKeys.rows ∧
        x.sides.source.RestsOnChangedKey x.sides.target k := by
  rw [PlanInput.mem_createForeignKey]
  constructor
  · intro h'
    obtain ⟨hc, -⟩ | ha | ⟨l, hl, hget⟩ := h'
    · exact absurd hk (h.same.agree_foreignKeys.not_created hc)
    · exact absurd hk (h.same.agree_foreignKeys.not_right (fun _ => mem_altered_foreignKeys) ha)
    · obtain ⟨hl, -, hrests⟩ := rebuilds_iff.1 hl
      obtain ⟨hkt, e⟩ := Collection.get?_eq_some_iff.1 hget
      have hks := (h.same.foreignKeys k hk).2 hkt
      rw [Collection.eq_of_key_eq hks hl e]
      exact ⟨hl, hrests⟩
  · intro h'
    obtain ⟨hks, hrests⟩ := h'
    refine .inr (.inr ⟨k, rebuilds_iff.2 ⟨hks, hk ▸ h.not_drops mode, hrests⟩, ?_⟩)
    exact Collection.get?_eq_some_iff.2 ⟨(h.same.foreignKeys k hk).1 hks, rfl⟩

/-- **All that happens to the table** are foreign keys that are rebuilt. -/
theorem mem_statements_iff {s : Statement} (hst : s.table? = some t) :
    s ∈ (x.plan mode).statements ↔
      ∃ k ∈ x.sides.source.foreignKeys.rows, k.table = t ∧
        x.sides.source.RestsOnChangedKey x.sides.target k ∧
          (s = .dropConstraint t k.name .foreignKey ∨ s = .createForeignKey k) := by
  constructor
  · intro hm
    obtain ⟨n, rfl⟩ | ⟨k, hk, rfl⟩ := h.about_foreignKey hm hst
    · obtain ⟨k, hks, hk, hrests, rfl⟩ := h.dropForeignKey_iff.1 hm
      exact ⟨k, hks, hk, hrests, .inl rfl⟩
    · obtain ⟨hks, hrests⟩ := (h.createForeignKey_iff hk).1 hm
      exact ⟨k, hks, hk, hrests, .inr rfl⟩
  · intro h'
    obtain ⟨k, hks, hk, hrests, rfl | rfl⟩ := h'
    · exact h.dropForeignKey_iff.2 ⟨k, hks, hk, hrests, rfl⟩
    · exact (h.createForeignKey_iff hk).2 ⟨hks, hrests⟩

end Untouched

end Settled

/-- **Unchanged tables are left alone**, but for their foreign keys on primary keys that change. -/
theorem Migration.unchanged_tables_untouched {σ : Type} (options : MigrationOptions)
    (source target : Catalog) (a : σ) :
    ∃ m, Returns (Migration.between (.never : Resolver (StateM σ)) options source target) a m a ∧
      ∀ t, source.hasTable t = true → target.hasTable t = true → source.SameTable target t →
        (∀ s : Statement, s.table? = some t → (s ∈ m.statements ↔
          ∃ k ∈ source.foreignKeys.rows, k.table = t ∧ source.RestsOnChangedKey target k ∧
            (s = .dropConstraint t k.name .foreignKey ∨ s = .createForeignKey k))) ∧
        ((∀ k ∈ source.foreignKeys.rows, k.table = t → ¬source.RestsOnChangedKey target k) →
          ∀ s ∈ m.statements, s.table? ≠ some t) := by
  refine ⟨_, Migration.returns_between options (Sides.returns_settle_never ⟨source, target⟩ a), ?_⟩
  intro t hs ht hsame
  rw [Migration.statements_ofSettled]
  have h : Settled.Untouched ⟨⟨source, target⟩, {}⟩ t := ⟨hs, ht, hsame, rfl⟩
  refine ⟨fun s hst => h.mem_statements_iff hst, fun hno s hm hst => ?_⟩
  obtain ⟨k, hk, hkt, hrests, -⟩ := (h.mem_statements_iff hst).1 hm
  exact hno k hk hkt hrests

/-- A shop whose orders change their primary key, with items that refer to it and notes that do
not. -/
def shop (key : String) : Catalog where
  tables := ⟨[⟨"orders"⟩, ⟨"items"⟩, ⟨"notes"⟩], by decide⟩
  columns := ⟨[{ table := "items", name := "order", type := "int" },
    { table := "notes", name := "text", type := "text" }], by decide⟩
  primaryKeys := ⟨[⟨"orders", "orders_pk", true, [key]⟩], List.nodup_singleton _⟩
  foreignKeys := ⟨[⟨"items", "order_fk", true, ["order"], "orders", ["id"], .noAction, .noAction⟩],
    List.nodup_singleton _⟩

theorem shop_sameTable {t : String} (h : t ≠ "orders") : (shop "id").SameTable (shop "code") t where
  columns _ _ := Iff.rfl
  primaryKeys k hk := by
    have hne (n : String) : k ≠ ⟨"orders", "orders_pk", true, [n]⟩ :=
      fun e => h (hk.symm.trans (congrArg PrimaryKey.table e))
    exact iff_of_false (mt List.mem_singleton.1 (hne "id")) (mt List.mem_singleton.1 (hne "code"))
  foreignKeys _ _ := Iff.rfl
  indexes _ _ := Iff.rfl
  checks _ _ := Iff.rfl

/-- The foreign key of the items is rebuilt, and nothing happens to the notes. -/
theorem Migration.unchanged_tables_untouched_of_shop :
    ((shop "id").hasTable "items" = true ∧ (shop "code").hasTable "items" = true ∧
      (shop "id").SameTable (shop "code") "items") ∧
    ((shop "id").hasTable "notes" = true ∧ (shop "code").hasTable "notes" = true ∧
      (shop "id").SameTable (shop "code") "notes") ∧
    ∃ m, Returns (Migration.between (.never : Resolver (StateM Unit)) {} (shop "id")
        (shop "code")) () m () ∧
      .dropConstraint "items" "order_fk" .foreignKey ∈ m.statements ∧
      ∀ s ∈ m.statements, s.table? ≠ some "notes" := by
  obtain ⟨m, hm, h⟩ := Migration.unchanged_tables_untouched {} (shop "id") (shop "code") ()
  have hitems := shop_sameTable (t := "items") (by decide)
  have hnotes := shop_sameTable (t := "notes") (by decide)
  refine ⟨⟨by decide, by decide, hitems⟩, ⟨by decide, by decide, hnotes⟩, m, hm, ?_, ?_⟩
  · refine ((h "items" (by decide) (by decide) hitems).1 _ rfl).2
      ⟨_, List.mem_singleton_self _, rfl, ?_, .inl rfl⟩
    exact ⟨⟨"orders", "orders_pk", true, ["id"]⟩, List.mem_singleton_self _,
      ⟨"orders", "orders_pk", true, ["code"]⟩, List.mem_singleton_self _, rfl, by decide, rfl,
      .refl _⟩
  · refine (h "notes" (by decide) (by decide) hnotes).2 fun k hk hkt => ?_
    rw [List.mem_singleton.1 hk] at hkt
    exact absurd hkt (by decide)

end SchemaEvolution
