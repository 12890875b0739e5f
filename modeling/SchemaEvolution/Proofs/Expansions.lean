import SchemaEvolution.Proofs.GroupedColumns
import SchemaEvolution.Proofs.Repetitions

/-!
# Descriptions and what they stand for

A description with shorthands stands for a list of rows (`Description.expanded`): every unique
column for an index before the indexes that are listed, and the columns in primary keys for one key
for each of their tables, after the keys that are listed.

**A description is loaded as its expansion** (`Catalog.ofDescription_expands`). The tables, columns
and indexes that repeat a key are reported, all of them and in order. If there are none, the first
other row that repeats a key is the reason of the failure. If there are none at all, the catalog has
exactly the expanded rows, each kind in their order.

Loading is followed row by row. What has been declared determines the catalog and the conflicts
(`Loading.Declared`), and the columns so far determine the shorthands (`Loading.Noted`), whether a
column is declared again or not. From then on a catalog is either that of all rows up to there, or
the first repetition has ended the loading (`LoadedUpTo`).
-/

namespace SchemaEvolution

open Entity (repetitions KeysDistinct)

/-! ## Expanded rows -/

namespace DeclaredColumn

/-- The index that makes a column unique by itself, under its default name unless it has another
one. -/
def uniqueIndex (d : DeclaredColumn) : Index where
  table := d.column.table
  name := d.uniqueName.getD (d.column.table ++ "_" ++ d.column.name ++ "_unique")
  nameExplicit := d.uniqueName.isSome
  parts := [.column d.column.name]
  isUnique := true

/-- The unique indexes that columns ask for, in the order of the columns. -/
def uniqueIndexes (ds : List DeclaredColumn) : List Index :=
  (ds.filter (·.isUnique)).map uniqueIndex

/-- The columns that say that they are in primary keys, grouped by table. -/
def keyColumns (ds : List DeclaredColumn) : KeyColumns :=
  .grouped ((ds.filter (·.isKey)).map fun d => (d.column.table, d.column.name))

theorem uniqueIndex?_eq (d : DeclaredColumn) :
    d.uniqueIndex? = if d.isUnique then some d.uniqueIndex else none := by
  obtain ⟨column, isKey, isUnique, uniqueName⟩ := d
  cases uniqueName <;> rfl

end DeclaredColumn

namespace Description

/-- The tables, columns and indexes that a description stands for. -/
def named (d : Description) : List Entity :=
  d.tables.map .table ++ d.columns.map (fun c => .column c.column) ++
    (DeclaredColumn.uniqueIndexes d.columns ++ d.indexes).map .index

/-- The rows that a description stands for. -/
def expanded (d : Description) : List Entity :=
  d.named ++
    (d.primaryKeys ++ (DeclaredColumn.keyColumns d.columns).primaryKeys).map .primaryKey ++
    d.foreignKeys.map .foreignKey ++ d.checks.map .check ++ d.views.map .view ++
    d.viewColumns.map .viewColumn

end Description

/-- The conflict of a table, a column or an index that is declared again. -/
def NameConflict.of? : Entity → Option NameConflict
  | .table t => some (.table t.name)
  | .column c => some (.column c.table c.name)
  | .index i => some (.index i.table i.name)
  | _ => none

/-- The clash of any other row whose key is taken. -/
def KeyClash.of? : Entity → Option KeyClash
  | .primaryKey k => some (.primaryKey k.table)
  | .foreignKey k => some (.foreignKey k.table k.name)
  | .check k => some (.check k.table k.name)
  | .view v => some (.view v.name)
  | .viewColumn w => some (.viewColumn w.view w.name)
  | _ => none

/-! ## Rows that are declared -/

/-- What every item of a list adds to is added to by the list. -/
theorem foldl_concat_induction {σ α : Type} {P : σ → List α → Prop} {f : σ → α → σ}
    (step : ∀ s xs x, P s xs → P (f s x) (xs ++ [x])) {s : σ} (h : P s []) (xs : List α) :
    P (xs.foldl f s) xs := by
  induction xs using List.reverseRecOn with
  | nil => exact h
  | append_singleton xs x ih =>
    rw [List.foldl_concat]
    exact step _ xs x ih

namespace Loading

variable {s : Loading} {es : List Entity} {e : Entity} {ds : List DeclaredColumn}

/-- The rows have been declared. -/
structure Declared (s : Loading) (es : List Entity) : Prop where
  catalog : s.catalog = .ofEntitiesLoose es
  conflicts : s.conflicts = (repetitions es).filterMap NameConflict.of?

/-- **A row is inserted or noted as a conflict.** -/
theorem Declared.declare (h : s.Declared es) {conflict : NameConflict}
    (he : NameConflict.of? e = some conflict) : (s.declare e conflict).Declared (es ++ [e]) := by
  have htaken : (s.catalog.stored? e).isSome = true ↔ e.Repeats es :=
    h.catalog ▸ Catalog.hasTaken_ofEntitiesLoose es e
  have hcatalog : Catalog.ofEntitiesLoose (es ++ [e]) = s.catalog.insert e := by
    rw [Catalog.ofEntitiesLoose_concat, h.catalog]
  rw [Loading.declare]
  split
  next hs =>
    refine ⟨?_, ?_⟩
    · rw [hcatalog, Catalog.insert_of_taken hs]
    · rw [Entity.repetitions_concat, if_pos (htaken.1 hs), List.filterMap_append, h.conflicts]
      simp [he]
  next hs =>
    refine ⟨hcatalog.symm, ?_⟩
    rw [Entity.repetitions_concat, if_neg fun hr => hs (htaken.2 hr), List.append_nil]
    exact h.conflicts

theorem Declared.table (h : s.Declared es) (t : Table) :
    (s.table t).Declared (es ++ [.table t]) :=
  h.declare rfl

theorem Declared.column (h : s.Declared es) (d : DeclaredColumn) :
    (s.column d).Declared (es ++ [.column d.column]) :=
  Declared.declare (s := s.note d) ⟨h.catalog, h.conflicts⟩ rfl

theorem Declared.index (h : s.Declared es) (i : Index) :
    (s.index i).Declared (es ++ [.index i]) :=
  h.declare rfl

/-- **Rows are declared one after the other.** -/
theorem Declared.foldl {α : Type} {f : Loading → α → Loading} {toEntity : α → Entity}
    (step : ∀ {s es} x, Declared s es → (f s x).Declared (es ++ [toEntity x]))
    (h : s.Declared es) (xs : List α) : (xs.foldl f s).Declared (es ++ xs.map toEntity) :=
  foldl_concat_induction (P := fun (s : Loading) xs => s.Declared (es ++ xs.map toEntity))
    (fun s xs x h => by simpa using step x h) (by simpa using h) xs

/-! ## Shorthands -/

/-- The shorthands of columns have been noted. -/
structure Noted (s : Loading) (ds : List DeclaredColumn) : Prop where
  keyColumns : s.keyColumns = DeclaredColumn.keyColumns ds
  uniqueIndexes : s.uniqueIndexes = DeclaredColumn.uniqueIndexes ds

theorem Noted.declare (h : s.Noted ds) (conflict : NameConflict) :
    (s.declare e conflict).Noted ds := by
  rw [Loading.declare]
  split
  · exact ⟨h.keyColumns, h.uniqueIndexes⟩
  · exact ⟨h.keyColumns, h.uniqueIndexes⟩

/-- **A column adds to the shorthands**, even if it is declared again. -/
theorem Noted.column (h : s.Noted ds) (d : DeclaredColumn) : (s.column d).Noted (ds ++ [d]) := by
  refine Noted.declare (s := s.note d) ⟨?_, ?_⟩ _
  · rw [note, h.keyColumns, DeclaredColumn.keyColumns, DeclaredColumn.keyColumns,
      List.filter_append, List.map_append]
    by_cases hd : d.isKey = true
    · simp [hd, KeyColumns.grouped_concat]
    · simp [hd]
  · rw [note, h.uniqueIndexes, DeclaredColumn.uniqueIndexes, DeclaredColumn.uniqueIndexes,
      List.filter_append, List.map_append, DeclaredColumn.uniqueIndex?_eq]
    by_cases hd : d.isUnique = true <;> simp [hd]

theorem Noted.table (h : s.Noted ds) (t : Table) : (s.table t).Noted ds :=
  h.declare _

theorem Noted.index (h : s.Noted ds) (i : Index) : (s.index i).Noted ds :=
  h.declare _

theorem Noted.foldl {α : Type} {f : Loading → α → Loading}
    (step : ∀ {s} x, Noted s ds → (f s x).Noted ds) (h : s.Noted ds) (xs : List α) :
    (xs.foldl f s).Noted ds :=
  foldl_concat_induction (P := fun (s : Loading) (_ : List α) => s.Noted ds)
    (fun _ _ x h => step x h) h xs

/-- **The rows with names of their own are declared**, those that shorthands stand for among
them. -/
theorem ofDescription_declared (d : Description) :
    (ofDescription d).Declared d.named ∧ (ofDescription d).Noted d.columns := by
  have hstart : Declared {} [] := ⟨rfl, rfl⟩
  have htables := hstart.foldl (fun t h => h.table t) d.tables
  have hnone : Noted {} [] := ⟨KeyColumns.grouped_nil.symm, rfl⟩
  have hnoted := hnone.foldl (fun t h => h.table t) d.tables
  have hcolumns := htables.foldl (fun c h => h.column c) d.columns
  have hnoted' : Noted (d.columns.foldl column (d.tables.foldl table {})) d.columns :=
    foldl_concat_induction (fun _ _ c h => h.column c) hnoted d.columns
  have hindexes := hcolumns.foldl (fun i h => h.index i)
    ((d.columns.foldl column (d.tables.foldl table {})).uniqueIndexes ++ d.indexes)
  refine ⟨?_, hnoted'.foldl (fun i h => h.index i) _⟩
  rw [hnoted'.uniqueIndexes] at hindexes
  rw [ofDescription, hnoted'.uniqueIndexes]
  exact hindexes

end Loading

/-! ## Rows that must be new -/

/-- The catalog has all rows, which have distinct keys, or the first of the rows that repeat a key
has ended the loading. -/
def LoadedUpTo (r : Except Error Catalog) (es : List Entity) : Prop :=
  repetitions es = [] ∧ r = .ok (.ofEntitiesLoose es) ∨
    ∃ k, ((repetitions es).filterMap KeyClash.of?).head? = some k ∧ r = .error (.clash k)

section

variable {α : Type} {r : Except Error Catalog} {es : List Entity} {toEntity : α → Entity}
  {clash : α → KeyClash} {k : KeyClash}

theorem head?_clashes_append (h : ((repetitions es).filterMap KeyClash.of?).head? = some k)
    (ys : List Entity) : ((repetitions (es ++ ys)).filterMap KeyClash.of?).head? = some k := by
  obtain ⟨zs, hzs, -⟩ := Entity.exists_repetitions_append es ys
  rw [hzs, List.filterMap_append, List.head?_append, h]
  rfl

theorem loadedUpTo_insertNew (hclash : ∀ x, KeyClash.of? (toEntity x) = some (clash x))
    (hes : repetitions es = []) (xs : List α) :
    LoadedUpTo ((Catalog.ofEntitiesLoose es).insertNew toEntity clash xs)
      (es ++ xs.map toEntity) := by
  induction xs generalizing es with
  | nil => exact .inl ⟨by simpa using hes, by simp [Catalog.insertNew]⟩
  | cons x xs ih =>
    have htaken := Catalog.hasTaken_ofEntitiesLoose es (toEntity x)
    have hnext := Entity.repetitions_concat es (toEntity x)
    rw [List.map_cons, List.append_cons, Catalog.insertNew]
    split
    next hx =>
      refine .inr ⟨clash x, head?_clashes_append ?_ _, rfl⟩
      rw [hnext, if_pos (htaken.1 hx), hes]
      simp [hclash]
    next hx =>
      rw [if_neg fun h => hx (htaken.2 h), hes] at hnext
      rw [← Catalog.ofEntitiesLoose_concat]
      exact ih hnext

/-- **More rows are inserted**, unless the loading has ended before. -/
theorem LoadedUpTo.insertNew (h : LoadedUpTo r es) (toEntity : α → Entity) (clash : α → KeyClash)
    (hclash : ∀ x, KeyClash.of? (toEntity x) = some (clash x)) (xs : List α) :
    LoadedUpTo (r >>= fun c => c.insertNew toEntity clash xs) (es ++ xs.map toEntity) := by
  rcases h with ⟨hes, rfl⟩ | ⟨k, hk, rfl⟩
  · exact loadedUpTo_insertNew hclash hes xs
  · exact .inr ⟨k, head?_clashes_append hk _, rfl⟩

end

/-! ## Descriptions -/

/-- The kinds of rows of which every repetition is reported. -/
def Kind.reported : List Kind :=
  [.tables, .columns, .indexes]

theorem NameConflict.of?_eq_none_iff {e : Entity} : of? e = none ↔ e.kind ∉ Kind.reported := by
  cases e <;> simp [of?, Entity.kind, Entity.elim, Row.kind, Kind.reported]

theorem KeyClash.of?_eq_none_iff {e : Entity} : of? e = none ↔ e.kind ∈ Kind.reported := by
  cases e <;> simp [of?, Entity.kind, Entity.elim, Row.kind, Kind.reported]

theorem Description.kind_of_mem_named {d : Description} {e : Entity} (h : e ∈ d.named) :
    e.kind ∈ Kind.reported := by
  simp only [named, List.mem_append, List.mem_map] at h
  rcases h with (⟨t, -, rfl⟩ | ⟨c, -, rfl⟩) | ⟨i, -, rfl⟩
  · exact List.mem_cons_self ..
  · exact List.mem_cons_of_mem _ (List.mem_cons_self ..)
  · exact List.mem_cons_of_mem _ (List.mem_cons_of_mem _ (List.mem_cons_self ..))

theorem Description.expanded_eq_append (d : Description) :
    ∃ ys, d.expanded = d.named ++ ys ∧ ∀ y ∈ ys, y.kind ∉ Kind.reported := by
  refine ⟨_, by simp only [expanded, List.append_assoc]; rfl, fun y hy => ?_⟩
  simp only [List.mem_append, List.mem_map] at hy
  rcases hy with ⟨x, -, rfl⟩ | ⟨x, -, rfl⟩ | ⟨x, -, rfl⟩ | ⟨x, -, rfl⟩ | ⟨x, -, rfl⟩
  all_goals simp [Kind.reported, Entity.kind, Entity.elim, Row.kind]

section

variable {es ys : List Entity} {k : KeyClash}

/-- Conflicts stand for the repetitions of the kinds that are reported. -/
theorem conflicts_eq_nil_iff : (repetitions es).filterMap NameConflict.of? = [] ↔
    ∀ kind ∈ Kind.reported, KeysDistinct es kind := by
  simp only [List.filterMap_eq_nil_iff, NameConflict.of?_eq_none_iff, Entity.keysDistinct_iff]
  exact ⟨fun h kind hk e he hkind => h e he (hkind ▸ hk), fun h e he hk => h e.kind hk e he rfl⟩

theorem conflicts_append (h : ∀ y ∈ ys, y.kind ∉ Kind.reported) :
    (repetitions (es ++ ys)).filterMap NameConflict.of? =
      (repetitions es).filterMap NameConflict.of? := by
  obtain ⟨zs, hzs, hmem⟩ := Entity.exists_repetitions_append es ys
  have hnone : zs.filterMap NameConflict.of? = [] :=
    List.filterMap_eq_nil_iff.2 fun z hz => NameConflict.of?_eq_none_iff.2 (h z (hmem z hz))
  rw [hzs, List.filterMap_append, hnone, List.append_nil]

/-- If no conflict is reported, there is nothing but clashes. -/
theorem exists_clash (h : ((repetitions es).filterMap KeyClash.of?).head? = some k) :
    ∃ kind, kind ∉ Kind.reported ∧ ¬KeysDistinct es kind := by
  have hmem := List.mem_of_head? h
  obtain ⟨e, he, hk⟩ := List.mem_filterMap.1 hmem
  refine ⟨e.kind, fun hkind => ?_, fun hd => Entity.keysDistinct_iff.1 hd e he rfl⟩
  rw [KeyClash.of?_eq_none_iff.2 hkind] at hk
  cases hk

end

namespace Catalog

/-- **Conflicts are reported before the other rows are inserted.** -/
theorem ofDescription_cases (d : Description) :
    (¬∀ kind ∈ Kind.reported, KeysDistinct d.expanded kind) ∧
        ofDescription d =
          .error (.conflicts ((repetitions d.expanded).filterMap NameConflict.of?)) ∨
      (∀ kind ∈ Kind.reported, KeysDistinct d.expanded kind) ∧
        LoadedUpTo (ofDescription d) d.expanded := by
  obtain ⟨hdeclared, hnoted⟩ := Loading.ofDescription_declared d
  obtain ⟨ys, hys, hkinds⟩ := d.expanded_eq_append
  have hconflicts : (repetitions d.expanded).filterMap NameConflict.of? =
      (Loading.ofDescription d).conflicts := by
    rw [hdeclared.conflicts, hys, conflicts_append hkinds]
  rw [← conflicts_eq_nil_iff, hconflicts]
  by_cases h : (Loading.ofDescription d).conflicts = []
  · refine .inr ⟨h, ?_⟩
    -- Each of the named rows would be reported as a conflict, so none of them is a repetition.
    have hnamed : repetitions d.named = [] := by
      rw [hdeclared.conflicts, List.filterMap_eq_nil_iff] at h
      refine List.eq_nil_iff_forall_not_mem.2 fun e he => ?_
      exact NameConflict.of?_eq_none_iff.1 (h e he)
        (Description.kind_of_mem_named (Entity.mem_of_mem_repetitions he))
    have hstart : LoadedUpTo (.ok (Loading.ofDescription d).catalog) d.named :=
      .inl ⟨hnamed, by rw [hdeclared.catalog]⟩
    have hkeys := hstart.insertNew .primaryKey (fun k => .primaryKey k.table) (fun _ => rfl)
      (d.primaryKeys ++ (DeclaredColumn.keyColumns d.columns).primaryKeys)
    have hforeign := hkeys.insertNew .foreignKey (fun k => .foreignKey k.table k.name)
      (fun _ => rfl) d.foreignKeys
    have hchecks := hforeign.insertNew .check (fun k => .check k.table k.name) (fun _ => rfl)
      d.checks
    have hviews := hchecks.insertNew .view (fun v => .view v.name) (fun _ => rfl) d.views
    have hall := hviews.insertNew .viewColumn (fun w => .viewColumn w.view w.name)
      (fun _ => rfl) d.viewColumns
    simp only [bind_assoc] at hall
    rw [ofDescription, if_neg (not_not.2 h), hnoted.keyColumns]
    exact hall
  · exact .inl ⟨h, by rw [ofDescription, if_pos h]⟩

/-- A column that says that it is in the primary key adds a second one to a key that is listed. -/
example : ofDescription {
      columns := [{ column := { table := "t", name := "id", type := "int" }, isKey := true }]
      primaryKeys := [.implicit "t" ["id"]] } = .error (.clash (.primaryKey "t")) := by
  rfl

end Catalog

end SchemaEvolution
