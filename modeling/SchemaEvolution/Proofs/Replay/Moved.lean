import SchemaEvolution.Proofs.Entities
import SchemaEvolution.Proofs.Planning

/-!
# What renames move

The renames of tables and columns reach every row that belongs to a table (`Renames.moved`).

**Rows of the target stay**: the target is closed, so its rows mention only names that the target
has, and those are not given up (`Settlement.moved_target`). **Rows of the source keep apart**: two
of them never come to share a key (`Catalog.IsRelabelled.eq_of_key_eq`).
-/

namespace SchemaEvolution

/-- What tables and columns are called after the renames of a run. -/
def Renames.moved (r : Renames) : Relabelling :=
  (Relabelling.ofTableRenames r.tables).andThen (.ofColumnRenames r.columns)

theorem Renames.relabelling_eq (r : Renames) :
    r.relabelling = r.moved.andThen (.ofViewRenames r.views) :=
  rfl

namespace Entity

variable {ρ σ : Relabelling} {e e' : Entity}

theorem relabel_relabel : (e.relabel ρ).relabel σ = e.relabel (ρ.andThen σ) := by
  cases e <;> exact congrArg _ (Labelled.relabel_relabel ρ σ _)

theorem relabel_ofViews {m : NameMap} (h : e.owner? ≠ none) : e.relabel (.ofViews m) = e := by
  cases e with
  | view => exact absurd rfl h
  | viewColumn => exact absurd rfl h
  | table => rfl
  | column => rfl
  | check => rfl
  | primaryKey => simp [relabel, Labelled.relabel, Relabelling.ofViews]
  | foreignKey => simp [relabel, Labelled.relabel, Relabelling.ofViews]
  | index => simp [relabel, Labelled.relabel, Relabelling.ofViews, IndexPart.mapColumn_id]

theorem relabel_moved_of_view {r : Renames} (h : e.owner? = none) : e.relabel r.moved = e := by
  cases e with
  | view => rfl
  | viewColumn => rfl
  | _ => cases h

theorem relabel_relabelling {r : Renames} (h : e.owner? ≠ none) :
    e.relabel r.relabelling = e.relabel r.moved := by
  have ho : (e.relabel r.moved).owner? ≠ none := by
    rw [owner?_relabel]
    simpa using h
  rw [Renames.relabelling_eq, ← relabel_relabel, Relabelling.ofViewRenames, relabel_ofViews ho]

theorem key_relabel_congr (hkind : e.kind = e'.kind) (hkey : e.key = e'.key) :
    (e.relabel ρ).key = (e'.relabel ρ).key := by
  rw [key_relabel, key_relabel, hkind, hkey]

end Entity

namespace Catalog

variable {c d : Catalog} {ρ : Relabelling} {e e' : Entity}

theorem eq_of_relabelled_key {α : Type} [Row α] [Labelled α] {rows rows' : Collection α}
    (h : rows'.rows = rows.rows.map (relabel ρ)) {x y : α} (hx : x ∈ rows.rows)
    (hy : y ∈ rows.rows) (hkey : Row.key (relabel ρ x) = Row.key (relabel ρ y)) : x = y := by
  have hn := rows'.keys_nodup
  rw [h, List.map_map] at hn
  exact List.inj_on_of_nodup_map hn hx hy hkey

/-- **Rows do not come to share a key.** -/
theorem IsRelabelled.eq_of_key_eq (h : IsRelabelled ρ c d) (he : e ∈ c.entities)
    (he' : e' ∈ c.entities) (hkind : e.kind = e'.kind)
    (hkey : (e.relabel ρ).key = (e'.relabel ρ).key) : e = e' := by
  cases e <;> cases e' <;> first
    | (cases hkind; done)
    | exact congrArg _ (eq_of_relabelled_key h.tables (by simpa using he) (by simpa using he') hkey)
    | exact congrArg _
        (eq_of_relabelled_key h.columns (by simpa using he) (by simpa using he') hkey)
    | exact congrArg _
        (eq_of_relabelled_key h.primaryKeys (by simpa using he) (by simpa using he') hkey)
    | exact congrArg _
        (eq_of_relabelled_key h.foreignKeys (by simpa using he) (by simpa using he') hkey)
    | exact congrArg _
        (eq_of_relabelled_key h.indexes (by simpa using he) (by simpa using he') hkey)
    | exact congrArg _ (eq_of_relabelled_key h.checks (by simpa using he) (by simpa using he') hkey)
    | exact congrArg _ (eq_of_relabelled_key h.views (by simpa using he) (by simpa using he') hkey)
    | exact congrArg _
        (eq_of_relabelled_key h.viewColumns (by simpa using he) (by simpa using he') hkey)

end Catalog

theorem Catalog.Owned.hasTable {c : Catalog} (h : c.Owned) {e : Entity} {t : String}
    (he : e ∈ c.entities) (ho : e.owner? = some t) : c.hasTable t = true := by
  cases e with
  | view | viewColumn => cases ho
  | table row =>
    obtain rfl := Option.some.inj ho
    exact Collection.hasKey_key (Catalog.table_mem_entities.1 he)
  | column row => exact Option.some.inj ho ▸ h.columns row (by simpa using he)
  | primaryKey row => exact Option.some.inj ho ▸ h.primaryKeys row (by simpa using he)
  | foreignKey row => exact Option.some.inj ho ▸ h.foreignKeys row (by simpa using he)
  | index row => exact Option.some.inj ho ▸ h.indexes row (by simpa using he)
  | check row => exact Option.some.inj ho ▸ h.checks row (by simpa using he)

namespace Settlement

variable {source target middle : Catalog} {x : Settled} {t n : String} {e : Entity}

/-! ## Rows of the target -/

theorem moved_table (h : Settlement source target x middle)
    (ht : x.sides.target.hasTable t = true) : x.renames.moved.table t = t := by
  refine NameMap.apply_of_not_mem ?_
  simp only [Propagate.tableNames, List.map_map, List.mem_map, not_exists, not_and]
  rintro r hr rfl
  rw [h.kept.hasTable, Catalog.hasTable] at ht
  cases (h.tables.old_not_in_target r hr).symm.trans ht

theorem moved_column (h : Settlement source target x middle)
    (ht : x.sides.target.hasTable t = true) (hc : x.sides.target.hasColumn t n = true) :
    x.renames.moved.column t n = n := by
  have hmoved : (Relabelling.ofTableRenames x.renames.tables).table t = t := h.moved_table ht
  show (Relabelling.columnNames x.renames.columns
    ((Relabelling.ofTableRenames x.renames.tables).table t)).apply n = n
  rw [hmoved]
  refine NameMap.apply_of_not_mem ?_
  rw [Relabelling.mem_columnNames]
  intro h'
  obtain ⟨r, hr, e⟩ := h'
  rw [h.kept.hasColumn, Catalog.hasColumn, ← e] at hc
  cases (h.columns.old_not_in_target r hr).symm.trans hc

theorem moved_columns (h : Settlement source target x middle)
    (ht : x.sides.target.hasTable t = true) {names : List String}
    (hc : ∀ n ∈ names, x.sides.target.hasColumn t n = true) :
    names.map (x.renames.moved.column t) = names :=
  (List.map_congr_left fun n hn => h.moved_column ht (hc n hn)).trans (List.map_id' _)

/-- **Rows of a closed target stay.** -/
theorem moved_target (h : Settlement source target x middle) (ht : x.sides.target.Closed)
    (he : e ∈ x.sides.target.entities) : e.relabel x.renames.moved = e := by
  cases e with
  | table row =>
    rw [Catalog.table_mem_entities] at he
    exact congrArg (fun name => Entity.table ⟨name⟩) (h.moved_table (Collection.hasKey_key he))
  | column row =>
    rw [Catalog.column_mem_entities] at he
    have hrow := ht.columns row he
    simp only [Entity.relabel, relabel, h.moved_table hrow,
      h.moved_column hrow (Collection.hasKey_key he)]
  | primaryKey row =>
    rw [Catalog.primaryKey_mem_entities] at he
    have hrow := ht.primaryKeys row he
    simp only [Entity.relabel, relabel, h.moved_table hrow,
      h.moved_columns hrow (ht.primaryKey_columns row he)]
  | foreignKey row =>
    rw [Catalog.foreignKey_mem_entities] at he
    have hrow := ht.foreignKeys row he
    have htgt := ht.targets row he
    simp only [Entity.relabel, relabel, h.moved_table hrow, h.moved_table htgt,
      h.moved_columns hrow (ht.foreignKey_columns row he),
      h.moved_columns htgt (ht.target_columns row he)]
  | index row =>
    rw [Catalog.index_mem_entities] at he
    have hrow := ht.indexes row he
    have hparts : row.parts.map (·.mapColumn (x.renames.moved.column row.table)) = row.parts := by
      refine (List.map_congr_left fun p hp => ?_).trans (List.map_id' _)
      cases p with
      | column n =>
        exact congrArg IndexPart.column (h.moved_column hrow (ht.index_columns row he n hp))
      | expression sql => rfl
    simp only [Entity.relabel, relabel, h.moved_table hrow, hparts]
  | check row =>
    rw [Catalog.check_mem_entities] at he
    simp only [Entity.relabel, relabel, h.moved_table (ht.checks row he)]
  | view => rfl
  | viewColumn => rfl

end Settlement

end SchemaEvolution
