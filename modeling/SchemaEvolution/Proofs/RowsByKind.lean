import SchemaEvolution.Proofs.Reloading

/-!
# Rows kind by kind

A catalog has a list of rows for each kind (`Catalog.rowsOf`), and lists all rows kind by kind
(`Catalog.entities_eq_flatMap`).

Rows of any kind are put into a part of the catalog and listed from there (`Part.Lists`), whatever
the kind. So what holds of the rows of every part holds of every row (`Entity.ofPart`), and one
proof serves all kinds: **an inserted row goes behind the rows of its kind**, if its key is free
among them (`Catalog.rowsOf_insert`).
-/

namespace SchemaEvolution

/-- The rows of a kind in a catalog. -/
def Catalog.rowsOf (c : Catalog) : Kind → List Entity
  | .tables => c.tables.rows.map .table
  | .columns => c.columns.rows.map .column
  | .primaryKeys => c.primaryKeys.rows.map .primaryKey
  | .foreignKeys => c.foreignKeys.rows.map .foreignKey
  | .indexes => c.indexes.rows.map .index
  | .checks => c.checks.rows.map .check
  | .views => c.views.rows.map .view
  | .viewColumns => c.viewColumns.rows.map .viewColumn

/-! ## Parts -/

/-- The rows of a kind are those in the part. -/
structure Part.Lists {α : Type} [Row α] (part : Part α) (toEntity : α → Entity) : Prop
    extends part.Holds toEntity where
  inj : Function.Injective toEntity
  kind : ∀ x, (toEntity x).kind = Row.kind α := by
    intro x
    rfl
  key : ∀ x, (toEntity x).key = Row.key x := by
    intro x
    rfl
  rowsOf : ∀ c, c.rowsOf (Row.kind α) = (part.get c).rows.map toEntity := by
    intro c
    rfl
  rowsOf_set : ∀ rows c k, k ≠ Row.kind α → (part.set rows c).rowsOf k = c.rowsOf k := by
    rintro _ _ ⟨⟩ h <;> first | rfl | exact absurd rfl h

namespace Part

theorem lists_tables : tables.Lists .table where
  toHolds := holds_tables
  inj _ _ := Entity.table.inj

theorem lists_columns : columns.Lists .column where
  toHolds := holds_columns
  inj _ _ := Entity.column.inj

theorem lists_primaryKeys : primaryKeys.Lists .primaryKey where
  toHolds := holds_primaryKeys
  inj _ _ := Entity.primaryKey.inj

theorem lists_foreignKeys : foreignKeys.Lists .foreignKey where
  toHolds := holds_foreignKeys
  inj _ _ := Entity.foreignKey.inj

theorem lists_indexes : indexes.Lists .index where
  toHolds := holds_indexes
  inj _ _ := Entity.index.inj

theorem lists_checks : checks.Lists .check where
  toHolds := holds_checks
  inj _ _ := Entity.check.inj

theorem lists_views : views.Lists .view where
  toHolds := holds_views
  inj _ _ := Entity.view.inj

theorem lists_viewColumns : viewColumns.Lists .viewColumn where
  toHolds := holds_viewColumns
  inj _ _ := Entity.viewColumn.inj

end Part

/-- **What holds of the rows of every part holds of every row.** -/
@[elab_as_elim] theorem Entity.ofPart {motive : Entity → Prop}
    (row : ∀ {α : Type} [Row α] {part : Part α} {toEntity : α → Entity},
      part.Lists toEntity → ∀ x, motive (toEntity x)) (e : Entity) : motive e := by
  cases e with
  | table x => exact row Part.lists_tables x
  | column x => exact row Part.lists_columns x
  | primaryKey x => exact row Part.lists_primaryKeys x
  | foreignKey x => exact row Part.lists_foreignKeys x
  | index x => exact row Part.lists_indexes x
  | check x => exact row Part.lists_checks x
  | view x => exact row Part.lists_views x
  | viewColumn x => exact row Part.lists_viewColumns x

namespace Catalog

variable {c d : Catalog} {e : Entity} {k : Kind}

/-! ## All rows -/

/-- **All rows are listed kind by kind.** -/
theorem entities_eq_flatMap (c : Catalog) :
    c.entities = (Word.all : List Kind).flatMap c.rowsOf := by
  simp [entities, Word.all, rowsOf]

theorem kind_of_mem_rowsOf (h : e ∈ c.rowsOf k) : e.kind = k := by
  cases k <;> obtain ⟨x, -, rfl⟩ := List.mem_map.1 h <;> rfl

theorem filter_kind_rowsOf (c : Catalog) (k k' : Kind) :
    (c.rowsOf k').filter (·.kind = k) = if k' = k then c.rowsOf k else [] := by
  split
  next h =>
    subst h
    exact List.filter_eq_self.2 fun e he => decide_eq_true (kind_of_mem_rowsOf he)
  next h =>
    refine List.filter_eq_nil_iff.2 fun e he => ?_
    rw [kind_of_mem_rowsOf he]
    simpa using h

theorem filter_kind_entities (c : Catalog) (k : Kind) :
    c.entities.filter (·.kind = k) = c.rowsOf k := by
  rw [entities_eq_flatMap, List.filter_flatMap]
  simp only [filter_kind_rowsOf]
  cases k <;> simp [Word.all]

/-- **The rows of a kind have distinct keys.** -/
theorem nodup_key_rowsOf (c : Catalog) (k : Kind) : ((c.rowsOf k).map Entity.key).Nodup := by
  cases k <;> rw [rowsOf, List.map_map]
  case tables => exact c.tables.keys_nodup
  case columns => exact c.columns.keys_nodup
  case primaryKeys => exact c.primaryKeys.keys_nodup
  case foreignKeys => exact c.foreignKeys.keys_nodup
  case indexes => exact c.indexes.keys_nodup
  case checks => exact c.checks.keys_nodup
  case views => exact c.views.keys_nodup
  case viewColumns => exact c.viewColumns.keys_nodup

/-! ## Inserted rows -/

theorem isSome_stored?_iff :
    (c.stored? e).isSome = true ↔ ∃ e' ∈ c.rowsOf e.kind, e'.key = e.key := by
  induction e using Entity.ofPart with
  | row hp x =>
    rw [hp.stored?, Option.isSome_map, hp.kind, hp.key, hp.rowsOf]
    refine Collection.hasKey_iff_exists.trans ?_
    simp [hp.key]

/-- **A row whose key is taken is left out.** -/
theorem insert_of_taken (h : (c.stored? e).isSome = true) : c.insert e = c := by
  induction e using Entity.ofPart with
  | row hp x =>
    rw [hp.stored?, Option.isSome_map] at h
    rw [hp.insert, Collection.insert, dif_pos (by exact h), hp.set_get]

/-- **An inserted row goes behind the rows of its kind.** -/
theorem rowsOf_insert (h : (c.stored? e).isSome = false) (k : Kind) :
    (c.insert e).rowsOf k = c.rowsOf k ++ [e].filter (·.kind = k) := by
  induction e using Entity.ofPart with
  | @row α _ _ _ hp x =>
    rw [hp.stored?, Option.isSome_map] at h
    rw [hp.insert]
    by_cases hk : k = Row.kind α
    · subst hk
      rw [hp.rowsOf, hp.get_set, Collection.rows_insert h, List.map_append, hp.rowsOf]
      simp [hp.kind]
    · rw [hp.rowsOf_set _ _ _ hk]
      simp [hp.kind, Ne.symm hk]

end Catalog

end SchemaEvolution
