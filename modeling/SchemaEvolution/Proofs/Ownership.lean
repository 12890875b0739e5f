import SchemaEvolution.Proofs.Scheduled
import SchemaEvolution.Proofs.Settlement

/-!
# Catalogs whose names exist

Rows refer to tables, columns and views by name, and nothing forces a name to exist. In a placed
catalog (`Catalog.Placed`) every row belongs to a table or view of the catalog; in an owned one
(`Catalog.Owned`) every foreign key refers to a table of it, too. In a closed catalog
(`Catalog.Closed`) the columns that keys and indexes list exist as well.

**Settling renames keeps catalogs owned and closed** on the target side, and owned on the source
side. So a plan knows what every table was called before (`Settlement.formerTable_relabelled`).
-/

namespace SchemaEvolution

/-- The table that a row under a key belongs to. -/
def Key.owner : Key → String
  | .single t => t
  | .scoped t _ => t

theorem Table.nodup_keys (name : String) : ([(⟨name⟩ : Table)].map Row.key).Nodup :=
  List.nodup_singleton _

namespace Catalog

def hasTable (c : Catalog) (table : String) : Bool :=
  c.tables.hasKey (.single table)

def hasColumn (c : Catalog) (table name : String) : Bool :=
  c.columns.hasKey (.scoped table name)

/-- Every row belongs to a table or a view of the catalog. Foreign keys may refer to any table. -/
structure Placed (c : Catalog) : Prop where
  columns : ∀ x ∈ c.columns.rows, c.hasTable x.table = true
  primaryKeys : ∀ k ∈ c.primaryKeys.rows, c.hasTable k.table = true
  foreignKeys : ∀ k ∈ c.foreignKeys.rows, c.hasTable k.table = true
  indexes : ∀ i ∈ c.indexes.rows, c.hasTable i.table = true
  checks : ∀ k ∈ c.checks.rows, c.hasTable k.table = true
  viewColumns : ∀ x ∈ c.viewColumns.rows, c.views.hasKey (.single x.view) = true

/-- Every row belongs to a table or view of the catalog, and foreign keys refer to tables of it. -/
structure Owned (c : Catalog) : Prop where
  columns : ∀ x ∈ c.columns.rows, c.hasTable x.table = true
  primaryKeys : ∀ k ∈ c.primaryKeys.rows, c.hasTable k.table = true
  foreignKeys : ∀ k ∈ c.foreignKeys.rows, c.hasTable k.table = true
  targets : ∀ k ∈ c.foreignKeys.rows, c.hasTable k.target = true
  indexes : ∀ i ∈ c.indexes.rows, c.hasTable i.table = true
  checks : ∀ k ∈ c.checks.rows, c.hasTable k.table = true
  viewColumns : ∀ x ∈ c.viewColumns.rows, c.views.hasKey (.single x.view) = true

/-- An owned catalog in which all columns that keys and indexes list exist. -/
structure Closed (c : Catalog) : Prop extends Owned c where
  primaryKey_columns : ∀ k ∈ c.primaryKeys.rows, ∀ n ∈ k.columns, c.hasColumn k.table n = true
  foreignKey_columns : ∀ k ∈ c.foreignKeys.rows, ∀ n ∈ k.columns, c.hasColumn k.table n = true
  target_columns : ∀ k ∈ c.foreignKeys.rows, ∀ n ∈ k.targetColumns, c.hasColumn k.target n = true
  index_columns : ∀ i ∈ c.indexes.rows, ∀ n, .column n ∈ i.parts → c.hasColumn i.table n = true

theorem Owned.placed {c : Catalog} (h : c.Owned) : c.Placed :=
  ⟨h.columns, h.primaryKeys, h.foreignKeys, h.indexes, h.checks, h.viewColumns⟩

theorem Placed.owned {c : Catalog} (h : c.Placed)
    (ht : ∀ k ∈ c.foreignKeys.rows, c.hasTable k.target = true) : c.Owned :=
  ⟨h.columns, h.primaryKeys, h.foreignKeys, ht, h.indexes, h.checks, h.viewColumns⟩

instance (c : Catalog) : Decidable c.Owned :=
  decidable_of_iff
    ((∀ x ∈ c.columns.rows, c.hasTable x.table = true) ∧
      (∀ k ∈ c.primaryKeys.rows, c.hasTable k.table = true) ∧
      (∀ k ∈ c.foreignKeys.rows, c.hasTable k.table = true) ∧
      (∀ k ∈ c.foreignKeys.rows, c.hasTable k.target = true) ∧
      (∀ i ∈ c.indexes.rows, c.hasTable i.table = true) ∧
      (∀ k ∈ c.checks.rows, c.hasTable k.table = true) ∧
      ∀ x ∈ c.viewColumns.rows, c.views.hasKey (.single x.view) = true)
    ⟨fun ⟨hc, hp, hf, ht, hi, hk, hv⟩ => ⟨hc, hp, hf, ht, hi, hk, hv⟩,
      fun ⟨hc, hp, hf, ht, hi, hk, hv⟩ => ⟨hc, hp, hf, ht, hi, hk, hv⟩⟩

/-- Whether a table has the column that is part of an index. An expression may mention any. -/
def hasPart (c : Catalog) (table : String) : IndexPart → Bool
  | .column name => c.hasColumn table name
  | .expression _ => true

theorem hasPart_iff {c : Catalog} {table : String} {parts : List IndexPart} :
    (∀ p ∈ parts, c.hasPart table p = true) ↔
      ∀ n, .column n ∈ parts → c.hasColumn table n = true := by
  constructor
  · intro h n hn
    exact h _ hn
  · intro h p hp
    cases p with
    | column n => exact h n hp
    | expression => rfl

instance (c : Catalog) : Decidable c.Closed :=
  decidable_of_iff
    (c.Owned ∧
      (∀ k ∈ c.primaryKeys.rows, ∀ n ∈ k.columns, c.hasColumn k.table n = true) ∧
      (∀ k ∈ c.foreignKeys.rows, ∀ n ∈ k.columns, c.hasColumn k.table n = true) ∧
      (∀ k ∈ c.foreignKeys.rows, ∀ n ∈ k.targetColumns, c.hasColumn k.target n = true) ∧
      ∀ i ∈ c.indexes.rows, ∀ p ∈ i.parts, c.hasPart i.table p = true)
    ⟨fun ⟨ho, hp, hf, ht, hi⟩ => ⟨ho, hp, hf, ht, fun i h => hasPart_iff.1 (hi i h)⟩,
      fun ⟨ho, hp, hf, ht, hi⟩ => ⟨ho, hp, hf, ht, fun i h => hasPart_iff.2 (hi i h)⟩⟩

/-! ## Other names of constraints -/

namespace SameButNames

variable {c d : Catalog}

theorem exists_foreignKey (h : SameButNames c d) {k : ForeignKey} (hk : k ∈ d.foreignKeys.rows) :
    ∃ l ∈ c.foreignKeys.rows, l.table = k.table ∧ l.columns = k.columns ∧ l.target = k.target ∧
      l.targetColumns = k.targetColumns := by
  have hm := List.mem_map_of_mem (f := ForeignKey.unnamed) hk
  rw [h.foreignKeys] at hm
  obtain ⟨l, hl, e⟩ := List.mem_map.1 hm
  simp only [ForeignKey.unnamed, ForeignKey.mk.injEq] at e
  exact ⟨l, hl, e.1, e.2.2.2.1, e.2.2.2.2.1, e.2.2.2.2.2.1⟩

theorem exists_index (h : SameButNames c d) {i : Index} (hi : i ∈ d.indexes.rows) :
    ∃ l ∈ c.indexes.rows, l.table = i.table ∧ l.parts = i.parts := by
  have hm := List.mem_map_of_mem (f := Index.unnamed) hi
  rw [h.indexes] at hm
  obtain ⟨l, hl, e⟩ := List.mem_map.1 hm
  simp only [Index.unnamed, Index.mk.injEq] at e
  exact ⟨l, hl, e.1, e.2.2.2.1⟩

theorem hasTable (h : SameButNames c d) (t : String) : d.hasTable t = c.hasTable t := by
  rw [Catalog.hasTable, Catalog.hasTable, h.tables]

theorem hasColumn (h : SameButNames c d) (t n : String) : d.hasColumn t n = c.hasColumn t n := by
  rw [Catalog.hasColumn, Catalog.hasColumn, h.columns]

theorem owned (h : SameButNames c d) (hc : c.Owned) : d.Owned where
  columns x hx := by
    rw [h.hasTable]
    exact hc.columns x (h.columns ▸ hx)
  primaryKeys k hk := by
    rw [h.hasTable]
    exact hc.primaryKeys k (h.primaryKeys ▸ hk)
  foreignKeys k hk := by
    obtain ⟨l, hl, ht, -⟩ := h.exists_foreignKey hk
    rw [h.hasTable, ← ht]
    exact hc.foreignKeys l hl
  targets k hk := by
    obtain ⟨l, hl, -, -, ht, -⟩ := h.exists_foreignKey hk
    rw [h.hasTable, ← ht]
    exact hc.targets l hl
  indexes i hi := by
    obtain ⟨l, hl, ht, -⟩ := h.exists_index hi
    rw [h.hasTable, ← ht]
    exact hc.indexes l hl
  checks k hk := by
    rw [h.hasTable]
    exact hc.checks k (h.checks ▸ hk)
  viewColumns x hx := by
    rw [h.views]
    exact hc.viewColumns x (h.viewColumns ▸ hx)

theorem closed (h : SameButNames c d) (hc : c.Closed) : d.Closed where
  toOwned := h.owned hc.toOwned
  primaryKey_columns k hk n hn := by
    rw [h.hasColumn]
    exact hc.primaryKey_columns k (h.primaryKeys ▸ hk) n hn
  foreignKey_columns k hk n hn := by
    obtain ⟨l, hl, ht, hcs, -⟩ := h.exists_foreignKey hk
    rw [h.hasColumn, ← ht]
    exact hc.foreignKey_columns l hl n (hcs ▸ hn)
  target_columns k hk n hn := by
    obtain ⟨l, hl, -, -, ht, hcs⟩ := h.exists_foreignKey hk
    rw [h.hasColumn, ← ht]
    exact hc.target_columns l hl n (hcs ▸ hn)
  index_columns i hi n hn := by
    obtain ⟨l, hl, ht, hp⟩ := h.exists_index hi
    rw [h.hasColumn, ← ht]
    exact hc.index_columns l hl n (hp ▸ hn)

end SameButNames

/-! ## New names -/

namespace IsRelabelled

variable {ρ : Relabelling} {c d : Catalog}

theorem hasTable (h : IsRelabelled ρ c d) {t : String} (ht : c.hasTable t = true) :
    d.hasTable (ρ.table t) = true := by
  obtain ⟨x, hx, e⟩ := Collection.hasKey_iff_exists.1 ht
  refine Collection.hasKey_iff_exists.2 ⟨relabel ρ x, h.tables ▸ List.mem_map_of_mem hx, ?_⟩
  rw [key_relabel, e]
  rfl

theorem hasView (h : IsRelabelled ρ c d) {v : String} (hv : c.views.hasKey (.single v) = true) :
    d.views.hasKey (.single (ρ.view v)) = true := by
  obtain ⟨x, hx, e⟩ := Collection.hasKey_iff_exists.1 hv
  refine Collection.hasKey_iff_exists.2 ⟨relabel ρ x, h.views ▸ List.mem_map_of_mem hx, ?_⟩
  rw [key_relabel, e]
  rfl

theorem placed (h : IsRelabelled ρ c d) (hc : c.Placed) : d.Placed where
  columns x hx := by
    rw [h.columns] at hx
    obtain ⟨y, hy, rfl⟩ := List.mem_map.1 hx
    exact h.hasTable (hc.columns y hy)
  primaryKeys x hx := by
    rw [h.primaryKeys] at hx
    obtain ⟨y, hy, rfl⟩ := List.mem_map.1 hx
    exact h.hasTable (hc.primaryKeys y hy)
  foreignKeys x hx := by
    rw [h.foreignKeys] at hx
    obtain ⟨y, hy, rfl⟩ := List.mem_map.1 hx
    exact h.hasTable (hc.foreignKeys y hy)
  indexes x hx := by
    rw [h.indexes] at hx
    obtain ⟨y, hy, rfl⟩ := List.mem_map.1 hx
    exact h.hasTable (hc.indexes y hy)
  checks x hx := by
    rw [h.checks] at hx
    obtain ⟨y, hy, rfl⟩ := List.mem_map.1 hx
    exact h.hasTable (hc.checks y hy)
  viewColumns x hx := by
    rw [h.viewColumns] at hx
    obtain ⟨y, hy, rfl⟩ := List.mem_map.1 hx
    exact h.hasView (hc.viewColumns y hy)

theorem owned (h : IsRelabelled ρ c d) (hc : c.Owned) : d.Owned := by
  refine (h.placed hc.placed).owned fun x hx => ?_
  rw [h.foreignKeys] at hx
  obtain ⟨y, hy, rfl⟩ := List.mem_map.1 hx
  exact h.hasTable (hc.targets y hy)

end IsRelabelled

end Catalog

end SchemaEvolution
