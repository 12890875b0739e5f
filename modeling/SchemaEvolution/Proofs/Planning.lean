import SchemaEvolution.Proofs.Ownership

/-!
# Plans between settled catalogs

What the plan between settled catalogs takes for created, dropped and altered, and what everything
in it was called before the renames.

**Renames keep rows**: the old name of what is renamed is gone from the settled source, and the
new name is there (`Settlement.old_table_gone`, `Settlement.new_table_there` and their likes), so a
dropped table is not a renamed one (`Settlement.relabelled_of_drops`). **Former names**: on an
owned source, `Renames.formerTable` undoes the renames of tables
(`Settlement.formerTable_relabelled`).
-/

namespace SchemaEvolution

namespace Settlement

variable {source target middle : Catalog} {x : Settled} {mode : Mode} {t v : String}

/-! ## Renamed rows -/

theorem follows_tables (h : Settlement source target x middle) :
    x.renames.relabelling.Follows x.renames.tables where
  old := (Relabelling.ofTableRenames_follows h.tables).old
  other := (Relabelling.ofTableRenames_follows h.tables).other

theorem follows_columns (h : Settlement source target x middle) :
    ((Relabelling.ofColumnRenames x.renames.columns).andThen
      (.ofViewRenames x.renames.views)).Follows x.renames.columns where
  old := (Relabelling.ofColumnRenames_follows h.columns h.columns_table).old
  other := (Relabelling.ofColumnRenames_follows h.columns h.columns_table).other

theorem follows_views (h : Settlement source target x middle) :
    x.renames.relabelling.Follows x.renames.views where
  old := (Relabelling.ofViewRenames_follows h.views).old
  other := (Relabelling.ofViewRenames_follows h.views).other

theorem old_table_gone (h : Settlement source target x middle) {r : Renaming Table}
    (hr : r ∈ x.renames.tables) : x.sides.source.hasTable r.old.name = false :=
  h.tables.old_not_mem h.follows_tables h.renamed.tables hr

theorem new_table_there (h : Settlement source target x middle) {r : Renaming Table}
    (hr : r ∈ x.renames.tables) : x.sides.source.hasTable r.new.name = true :=
  h.tables.new_mem h.follows_tables h.renamed.tables hr

theorem new_table_wanted (h : Settlement source target x middle) {r : Renaming Table}
    (hr : r ∈ x.renames.tables) : x.sides.target.hasTable r.new.name = true := by
  rw [h.kept.hasTable]
  exact h.tables.new_in_target r hr

theorem old_column_gone (h : Settlement source target x middle) {r : Renaming Column}
    (hr : r ∈ x.renames.columns) : x.sides.source.columns.hasKey (Row.key r.old) = false :=
  h.columns.old_not_mem h.follows_columns h.renamed_rest.columns hr

theorem new_column_there (h : Settlement source target x middle) {r : Renaming Column}
    (hr : r ∈ x.renames.columns) : x.sides.source.columns.hasKey (Row.key r.new) = true :=
  h.columns.new_mem h.follows_columns h.renamed_rest.columns hr

theorem old_view_gone (h : Settlement source target x middle) {r : Renaming View}
    (hr : r ∈ x.renames.views) : x.sides.source.views.hasKey (Row.key r.old) = false :=
  h.views.old_not_mem h.follows_views h.renamed.views hr

theorem new_view_there (h : Settlement source target x middle) {r : Renaming View}
    (hr : r ∈ x.renames.views) : x.sides.source.views.hasKey (Row.key r.new) = true :=
  h.views.new_mem h.follows_views h.renamed.views hr

/-! ## Created and dropped tables -/

theorem drops_iff : (x.plan mode).drops t = true ↔
    x.sides.source.hasTable t = true ∧ x.sides.target.hasTable t = false := by
  rw [PlanInput.drops_iff]
  constructor
  · intro h
    obtain ⟨y, hy, rfl⟩ := h
    obtain ⟨hs, ht⟩ := Collection.mem_dropped_iff.1 hy
    exact ⟨Collection.hasKey_iff_exists.2 ⟨y, hs, rfl⟩, ht⟩
  · intro h
    obtain ⟨hs, ht⟩ := h
    obtain ⟨y, hy, e⟩ := Collection.hasKey_iff_exists.1 hs
    exact ⟨y, Collection.mem_dropped_iff.2 ⟨hy, e ▸ ht⟩, Key.single.inj e⟩

theorem creates_iff : (x.plan mode).creates t = true ↔
    x.sides.target.hasTable t = true ∧ x.sides.source.hasTable t = false := by
  rw [PlanInput.creates_iff]
  constructor
  · intro h
    obtain ⟨y, hy, rfl⟩ := h
    obtain ⟨ht, hs⟩ := Collection.mem_created_iff.1 hy
    exact ⟨Collection.hasKey_iff_exists.2 ⟨y, ht, rfl⟩, hs⟩
  · intro h
    obtain ⟨ht, hs⟩ := h
    obtain ⟨y, hy, e⟩ := Collection.hasKey_iff_exists.1 ht
    exact ⟨y, Collection.mem_created_iff.2 ⟨hy, e ▸ hs⟩, Key.single.inj e⟩

/-- A table that is not kept was not renamed. -/
theorem relabelled_of_not_kept (h : Settlement source target x middle)
    (hs : x.sides.source.hasTable t = true) (ht : x.sides.target.hasTable t = false) :
    source.hasTable t = true ∧ x.renames.relabelling.table t = t := by
  obtain ⟨y, hy, rfl⟩ : ∃ y ∈ x.sides.source.tables.rows, y.name = t := by
    obtain ⟨y, hy, e⟩ := Collection.hasKey_iff_exists.1 hs
    exact ⟨y, hy, Key.single.inj e⟩
  rw [h.kept.hasTable] at ht
  obtain ⟨z, hz, hzy, e⟩ := h.tables.not_renamed h.follows_tables h.renamed.tables hy ht
  have hzn : y.name = z.name := Key.single.inj e
  rw [hzn]
  refine ⟨Collection.hasKey_iff_exists.2 ⟨z, hz, rfl⟩, ?_⟩
  exact (congrArg Table.name hzy).trans hzn

theorem relabelled_of_drops (h : Settlement source target x middle)
    (hd : (x.plan mode).drops t = true) :
    source.hasTable t = true ∧ x.renames.relabelling.table t = t := by
  obtain ⟨hs, ht⟩ := drops_iff.1 hd
  exact h.relabelled_of_not_kept hs ht

theorem new_name_free (h : Settlement source target x middle) (ht : source.hasTable t = true)
    (hne : x.renames.relabelling.table t ≠ t) :
    source.hasTable (x.renames.relabelling.table t) = false := by
  obtain ⟨y, -, e⟩ := Collection.hasKey_iff_exists.1 ht
  obtain rfl : y.name = t := Key.single.inj e
  by_cases hr : ∃ r ∈ x.renames.tables, Row.key r.old = Row.key y
  · obtain ⟨r, hr, er⟩ := hr
    have hnew := h.follows_tables.old r hr
    rw [er] at hnew
    rw [Catalog.hasTable, show Key.single (x.renames.relabelling.table y.name) = Row.key r.new
      from hnew]
    exact h.tables.new_not_in_source r hr
  · push Not at hr
    exact absurd (Key.single.inj (h.follows_tables.other y hr)) hne

/-! ## Former names -/

/-- **The former name of a table** that is found under its new one. -/
theorem formerTable_relabelled (h : Settlement source target x middle)
    (ht : source.hasTable t = true) :
    x.renames.formerTable (x.renames.relabelling.table t) = t := by
  obtain ⟨y, hy, rfl⟩ : ∃ y ∈ source.tables.rows, y.name = t := by
    obtain ⟨y, hy, e⟩ := Collection.hasKey_iff_exists.1 ht
    exact ⟨y, hy, Key.single.inj e⟩
  by_cases hr : ∃ r ∈ x.renames.tables, Row.key r.old = Row.key y
  · obtain ⟨r, hr, e⟩ := hr
    have hold : r.old.name = y.name := Key.single.inj e
    have hnew : x.renames.relabelling.table y.name = r.new.name := by
      rw [← hold]
      exact Key.single.inj (h.follows_tables.old r hr)
    unfold Renames.formerTable
    rw [hnew]
    cases hf : x.renames.tables.find? fun q => q.new.name == r.new.name with
    | none =>
      have := List.find?_eq_none.1 hf r hr
      simp at this
    | some q =>
      have hq := List.mem_of_find?_eq_some hf
      have hqn : q.new.name = r.new.name := by simpa using List.find?_some hf
      rw [h.tables.eq_of_new hr hq (congrArg Key.single hqn)]
      exact hold
  · push Not at hr
    have hsame : x.renames.relabelling.table y.name = y.name :=
      Key.single.inj (h.follows_tables.other y hr)
    unfold Renames.formerTable
    rw [hsame]
    cases hf : x.renames.tables.find? fun q => q.new.name == y.name with
    | none => rfl
    | some q =>
      have hq := List.mem_of_find?_eq_some hf
      have hqn : q.new.name = y.name := by simpa using List.find?_some hf
      have hno := h.tables.new_not_in_source q hq
      rw [show Row.key q.new = .single y.name from congrArg Key.single hqn] at hno
      exact absurd ht (by rw [Catalog.hasTable, hno]; exact Bool.false_ne_true)

theorem relabelled_inj (h : Settlement source target x middle) {u : String}
    (ht : source.hasTable t = true) (hu : source.hasTable u = true)
    (e : x.renames.relabelling.table t = x.renames.relabelling.table u) : t = u := by
  rw [← h.formerTable_relabelled ht, e, h.formerTable_relabelled hu]

/-- A table is dropped under the name that it has had all along, or not at all. -/
theorem drops_relabelled (h : Settlement source target x middle) (ht : source.hasTable t = true) :
    (x.plan mode).drops (x.renames.relabelling.table t) = (x.plan mode).drops t := by
  rw [Bool.eq_iff_iff]
  constructor
  · intro hd
    obtain ⟨hs, hsame⟩ := h.relabelled_of_drops hd
    rwa [h.relabelled_inj hs ht hsame] at hd
  · intro hd
    rwa [(h.relabelled_of_drops hd).2]

end Settlement

/-! ## Altered rows -/

namespace Settled

open Comparison

variable {x : Settled} {mode : Mode}

theorem mem_altered_columns {a : ColumnAlteration} :
    a ∈ (x.plan mode).alterations.columns ↔
      ∃ l ∈ x.sides.source.columns.rows, ∃ r ∈ x.sides.target.columns.rows, Row.key l = Row.key r ∧
        Alteration.effective? (redundantBetween mode x.sides.source x.sides.target) l r = some a :=
  Collection.mem_effective_iff

theorem mem_altered_primaryKeys {a : PrimaryKeyAlteration} :
    a ∈ (x.plan mode).alterations.primaryKeys ↔
      ∃ l ∈ x.sides.source.primaryKeys.rows, ∃ r ∈ x.sides.target.primaryKeys.rows,
        Row.key l = Row.key r ∧
          Alteration.effective? (fun _ => redundantInPrimaryKey) l r = some a :=
  Collection.mem_effective_iff

theorem mem_altered_foreignKeys {a : ForeignKeyAlteration} :
    a ∈ (x.plan mode).alterations.foreignKeys ↔
      ∃ l ∈ x.sides.source.foreignKeys.rows, ∃ r ∈ x.sides.target.foreignKeys.rows,
        Row.key l = Row.key r ∧
          Alteration.effective? (fun _ => redundantInForeignKey mode) l r = some a :=
  Collection.mem_effective_iff

theorem mem_altered_indexes {a : IndexAlteration} :
    a ∈ (x.plan mode).alterations.indexes ↔
      ∃ l ∈ x.sides.source.indexes.rows, ∃ r ∈ x.sides.target.indexes.rows, Row.key l = Row.key r ∧
        Alteration.effective? (fun _ => redundantInIndex mode) l r = some a :=
  Collection.mem_effective_iff

theorem mem_altered_checks {a : CheckAlteration} :
    a ∈ (x.plan mode).alterations.checks ↔
      ∃ l ∈ x.sides.source.checks.rows, ∃ r ∈ x.sides.target.checks.rows, Row.key l = Row.key r ∧
        Alteration.effective? (fun _ => redundantInCheck mode) l r = some a :=
  Collection.mem_effective_iff

theorem mem_altered_views {a : ViewAlteration} :
    a ∈ (x.plan mode).alterations.views ↔
      ∃ l ∈ x.sides.source.views.rows, ∃ r ∈ x.sides.target.views.rows, Row.key l = Row.key r ∧
        Alteration.effective? (fun _ => redundantInView mode) l r = some a :=
  Collection.mem_effective_iff

theorem exists_altered_of_target {l r : ForeignKey} (hl : l ∈ x.sides.source.foreignKeys.rows)
    (hr : r ∈ x.sides.target.foreignKeys.rows) (hk : Row.key l = Row.key r)
    (hne : l.target ≠ r.target) : ∃ a ∈ (x.plan mode).alterations.foreignKeys, a.left = l := by
  obtain ⟨a, ha, -⟩ := Alteration.exists_effective? (R := fun _ => redundantInForeignKey mode)
    (l := l) (r := r) ForeignKey.Attribute.target hne fun _ => rfl
  exact ⟨a, mem_altered_foreignKeys.2 ⟨l, hl, r, hr, hk, ha⟩, (Alteration.effective?_sides ha).1⟩

theorem exists_altered_of_columns {l r : PrimaryKey} (hl : l ∈ x.sides.source.primaryKeys.rows)
    (hr : r ∈ x.sides.target.primaryKeys.rows) (hk : Row.key l = Row.key r)
    (hne : l.columns ≠ r.columns) : ∃ a ∈ (x.plan mode).alterations.primaryKeys,
      a.left = l ∧ a.change .columns = some ⟨l.columns, r.columns⟩ := by
  obtain ⟨a, ha, hc⟩ := Alteration.exists_effective? (R := fun _ => redundantInPrimaryKey)
    (l := l) (r := r) PrimaryKey.Attribute.columns hne fun _ => rfl
  have hleft : a.left = l := (Alteration.effective?_sides ha).1
  exact ⟨a, mem_altered_primaryKeys.2 ⟨l, hl, r, hr, hk, ha⟩, hleft, hc⟩

/-! ## Dropped foreign keys -/

theorem mem_source_of_rebuilds {k : ForeignKey} (h : (x.plan mode).Rebuilds k) :
    k ∈ x.sides.source.foreignKeys.rows := by
  obtain ⟨_, -, _, -, hk⟩ := h
  exact (List.mem_filter.1 hk).1

theorem not_drops_of_rebuilds {k : ForeignKey} (h : (x.plan mode).Rebuilds k) :
    (x.plan mode).drops k.table = false := by
  obtain ⟨_, -, _, -, hk⟩ := h
  have hc := (List.mem_filter.1 hk).2
  rw [Bool.and_eq_true_iff, Bool.not_eq_true'] at hc
  exact hc.2

theorem mem_source_of_releases {k : ForeignKey} (h : (x.plan mode).Releases k) :
    k ∈ x.sides.source.foreignKeys.rows := by
  rcases h with ⟨hd, -⟩ | ⟨a, ha, rfl⟩ | hr
  · exact (Collection.mem_dropped_iff.1 hd).1
  · obtain ⟨l, hl, r, -, -, he⟩ := mem_altered_foreignKeys.1 ha
    rw [(Alteration.effective?_sides he).1]
    exact hl
  · exact mem_source_of_rebuilds hr

end Settled

namespace Settlement

variable {source target middle : Catalog} {x : Settled} {mode : Mode}

/-- **A foreign key is dropped under the name that its table has before renames.** -/
theorem mem_dropForeignKey_iff (h : Settlement source target x middle) (hs : source.Owned)
    {t n : String} : .dropConstraint t n .foreignKey ∈ (x.plan mode).statements ↔
      ∃ k ∈ source.foreignKeys.rows, (x.plan mode).Releases (relabel x.renames.relabelling k) ∧
        k.table = t ∧ k.name = n := by
  rw [PlanInput.mem_dropForeignKey]
  constructor
  · intro h'
    obtain ⟨l, hl, rfl, rfl⟩ := h'
    have hm := Settled.mem_source_of_releases hl
    rw [h.renamed.foreignKeys] at hm
    obtain ⟨k, hk, rfl⟩ := List.mem_map.1 hm
    exact ⟨k, hk, hl, (h.formerTable_relabelled (hs.foreignKeys k hk)).symm, rfl⟩
  · intro h'
    obtain ⟨k, hk, hr, rfl, rfl⟩ := h'
    exact ⟨_, hr, h.formerTable_relabelled (hs.foreignKeys k hk), rfl⟩

/-- No other foreign key is dropped by the statement that drops a foreign key. -/
theorem mem_dropForeignKey (h : Settlement source target x middle) (hs : source.Owned)
    {k : ForeignKey} (hk : k ∈ source.foreignKeys.rows) :
    .dropConstraint k.table k.name .foreignKey ∈ (x.plan mode).statements ↔
      (x.plan mode).Releases (relabel x.renames.relabelling k) := by
  rw [h.mem_dropForeignKey_iff hs]
  constructor
  · intro h'
    obtain ⟨l, hl, hr, ht, hn⟩ := h'
    rwa [← Collection.eq_of_key_eq hl hk (congrArg₂ Key.scoped ht hn)]
  · intro hr
    exact ⟨k, hk, hr, rfl, rfl⟩

end Settlement

end SchemaEvolution
