import SchemaEvolution.Proofs.Relabelling

/-!
# Rows of any kind in a catalog

Some changes of a catalog reach rows of every kind: a table takes its rows with it, a relabelling
goes through all rows. They are described by the entities of the catalog.

**A row belongs to a table** (`Entity.owner?`), except views and their columns. The key tells which
one it is. **A relabelling that keeps keys apart leads to a catalog**
(`Catalog.exists_isRelabelled`).
-/

namespace SchemaEvolution

namespace Entity

/-- The table that a row belongs to; a table belongs to itself. -/
def owner? : Entity → Option String
  | .table t => some t.name
  | .column c => some c.table
  | .primaryKey k => some k.table
  | .foreignKey k => some k.table
  | .index i => some i.table
  | .check k => some k.table
  | .view _ => none
  | .viewColumn _ => none

/-- Carries a relabelling through a row of any kind. -/
def relabel (ρ : Relabelling) : Entity → Entity
  | .table t => .table (Labelled.relabel ρ t)
  | .column c => .column (Labelled.relabel ρ c)
  | .primaryKey k => .primaryKey (Labelled.relabel ρ k)
  | .foreignKey k => .foreignKey (Labelled.relabel ρ k)
  | .index i => .index (Labelled.relabel ρ i)
  | .check k => .check (Labelled.relabel ρ k)
  | .view v => .view (Labelled.relabel ρ v)
  | .viewColumn c => .viewColumn (Labelled.relabel ρ c)

variable {ρ : Relabelling} {e e' : Entity} {t : String}

theorem owner?_relabel : (e.relabel ρ).owner? = e.owner?.map ρ.table := by
  cases e <;> rfl

theorem kind_relabel : (e.relabel ρ).kind = e.kind := by
  cases e <;> rfl

theorem key_relabel : (e.relabel ρ).key = ρ.key e.kind e.key := by
  cases e <;> exact Labelled.key_relabel ρ _

theorem owner?_eq_none_iff (hkind : e.kind = e'.kind) : e.owner? = none ↔ e'.owner? = none := by
  cases e <;> cases e' <;> first
    | (cases hkind; done)
    | simp [owner?]

/-- **Kind and key tell the owner.** -/
theorem owner?_eq_of_key_eq (hkind : e.kind = e'.kind) (hkey : e.key = e'.key) :
    e.owner? = e'.owner? := by
  cases e <;> cases e' <;> first
    | (cases hkind; done)
    | rfl
    | exact congrArg some (Key.single.inj hkey)
    | exact congrArg some (Key.scoped.inj hkey).1

end Entity

namespace Catalog

variable {c d : Catalog} {ρ : Relabelling} {e e' : Entity}

section Membership

@[simp] theorem table_mem_entities {x : Table} : .table x ∈ c.entities ↔ x ∈ c.tables.rows := by
  simp [entities]

@[simp] theorem column_mem_entities {x : Column} :
    .column x ∈ c.entities ↔ x ∈ c.columns.rows := by
  simp [entities]

@[simp] theorem primaryKey_mem_entities {x : PrimaryKey} :
    .primaryKey x ∈ c.entities ↔ x ∈ c.primaryKeys.rows := by
  simp [entities]

@[simp] theorem foreignKey_mem_entities {x : ForeignKey} :
    .foreignKey x ∈ c.entities ↔ x ∈ c.foreignKeys.rows := by
  simp [entities]

@[simp] theorem index_mem_entities {x : Index} : .index x ∈ c.entities ↔ x ∈ c.indexes.rows := by
  simp [entities]

@[simp] theorem check_mem_entities {x : Check} : .check x ∈ c.entities ↔ x ∈ c.checks.rows := by
  simp [entities]

@[simp] theorem view_mem_entities {x : View} : .view x ∈ c.entities ↔ x ∈ c.views.rows := by
  simp [entities]

@[simp] theorem viewColumn_mem_entities {x : ViewColumn} :
    .viewColumn x ∈ c.entities ↔ x ∈ c.viewColumns.rows := by
  simp [entities]

end Membership

/-- **Kind and key determine the row.** -/
theorem eq_of_key_eq (he : e ∈ c.entities) (he' : e' ∈ c.entities) (hkind : e.kind = e'.kind)
    (hkey : e.key = e'.key) : e = e' := by
  cases e <;> cases e' <;> first
    | (cases hkind; done)
    | exact congrArg _ (Collection.eq_of_key_eq (by simpa using he) (by simpa using he') hkey)

/-! ## Relabelled catalogs -/

theorem IsRelabelled.mem_entities (h : IsRelabelled ρ c d) :
    e ∈ d.entities ↔ ∃ e₀ ∈ c.entities, e₀.relabel ρ = e := by
  constructor
  · intro he
    cases e <;>
      simp only [table_mem_entities, column_mem_entities, primaryKey_mem_entities,
        foreignKey_mem_entities, index_mem_entities, check_mem_entities, view_mem_entities,
        viewColumn_mem_entities, h.tables, h.columns, h.primaryKeys, h.foreignKeys, h.indexes,
        h.checks, h.views, h.viewColumns, List.mem_map] at he <;>
      obtain ⟨y, hy, rfl⟩ := he
    · exact ⟨.table y, by simpa using hy, rfl⟩
    · exact ⟨.column y, by simpa using hy, rfl⟩
    · exact ⟨.primaryKey y, by simpa using hy, rfl⟩
    · exact ⟨.foreignKey y, by simpa using hy, rfl⟩
    · exact ⟨.index y, by simpa using hy, rfl⟩
    · exact ⟨.check y, by simpa using hy, rfl⟩
    · exact ⟨.view y, by simpa using hy, rfl⟩
    · exact ⟨.viewColumn y, by simpa using hy, rfl⟩
  · intro h'
    obtain ⟨e₀, he, rfl⟩ := h'
    cases e₀ <;>
      simp only [Entity.relabel, table_mem_entities, column_mem_entities, primaryKey_mem_entities,
        foreignKey_mem_entities, index_mem_entities, check_mem_entities, view_mem_entities,
        viewColumn_mem_entities, h.tables, h.columns, h.primaryKeys, h.foreignKeys, h.indexes,
        h.checks, h.views, h.viewColumns] at he ⊢ <;>
      exact List.mem_map_of_mem he

theorem exists_rows {α : Type} [Row α] [Labelled α] {rows : Collection α}
    (h : ∀ x ∈ rows.rows, ∀ y ∈ rows.rows,
      Row.key (Labelled.relabel ρ x) = Row.key (Labelled.relabel ρ y) → x = y) :
    ∃ d : Collection α, d.rows = rows.rows.map (Labelled.relabel ρ) := by
  refine ⟨⟨rows.rows.map (Labelled.relabel ρ), ?_⟩, rfl⟩
  rw [List.map_map]
  exact List.Nodup.map_on h rows.nodup_rows

/-- **A relabelling that keeps keys apart leads to a catalog.** -/
theorem exists_isRelabelled
    (h : ∀ e ∈ c.entities, ∀ e' ∈ c.entities, e.kind = e'.kind →
      (e.relabel ρ).key = (e'.relabel ρ).key → e = e') : ∃ d, IsRelabelled ρ c d := by
  obtain ⟨t, ht⟩ := exists_rows fun x hx y hy e =>
    Entity.table.inj (h (.table x) (by simpa using hx) (.table y) (by simpa using hy) rfl e)
  obtain ⟨cs, hc⟩ := exists_rows fun x hx y hy e =>
    Entity.column.inj (h (.column x) (by simpa using hx) (.column y) (by simpa using hy) rfl e)
  obtain ⟨ps, hp⟩ := exists_rows fun x hx y hy e =>
    Entity.primaryKey.inj
      (h (.primaryKey x) (by simpa using hx) (.primaryKey y) (by simpa using hy) rfl e)
  obtain ⟨fs, hf⟩ := exists_rows fun x hx y hy e =>
    Entity.foreignKey.inj
      (h (.foreignKey x) (by simpa using hx) (.foreignKey y) (by simpa using hy) rfl e)
  obtain ⟨is, hi⟩ := exists_rows fun x hx y hy e =>
    Entity.index.inj (h (.index x) (by simpa using hx) (.index y) (by simpa using hy) rfl e)
  obtain ⟨ks, hk⟩ := exists_rows fun x hx y hy e =>
    Entity.check.inj (h (.check x) (by simpa using hx) (.check y) (by simpa using hy) rfl e)
  obtain ⟨vs, hv⟩ := exists_rows fun x hx y hy e =>
    Entity.view.inj (h (.view x) (by simpa using hx) (.view y) (by simpa using hy) rfl e)
  obtain ⟨ws, hw⟩ := exists_rows fun x hx y hy e =>
    Entity.viewColumn.inj
      (h (.viewColumn x) (by simpa using hx) (.viewColumn y) (by simpa using hy) rfl e)
  exact ⟨⟨t, cs, ps, fs, is, ks, vs, ws⟩, ⟨ht, hc, hp, hf, hi, hk, hv, hw⟩⟩

end Catalog

end SchemaEvolution
