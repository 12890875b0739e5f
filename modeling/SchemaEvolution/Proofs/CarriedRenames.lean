import SchemaEvolution.Proofs.KeptNames

/-!
# Carrying renames out

An update fails only if two rows come to share a key. So renames can be carried through a source
whenever the relabelled rows are the rows of a catalog, and they lead to that catalog
(`Propagate.exists_returns_renameTables`, `Propagate.exists_returns_renameGroups`,
`Propagate.returns_renameViews_of`).

**What is touched on the way** (`Catalog.Touches`): the foreign keys and indexes whose names the
target keeps are relabelled rows, and every row that the relabelling changes is among them.
-/

namespace SchemaEvolution

/-! ## Touched rows -/

/-- The rows are relabelled rows of a collection, and no row that the relabelling changes is
missing. -/
structure Collection.Touches {α : Type} [Row α] [Labelled α] (c : Collection α) (ρ : Relabelling)
    (touched : List α) : Prop where
  relabelled : ∀ x ∈ touched, ∃ y ∈ c.rows, relabel ρ y = x
  changed : ∀ y ∈ c.rows, relabel ρ y ≠ y → relabel ρ y ∈ touched

/-- The foreign keys and indexes that a relabelling touches. -/
structure Catalog.Touches (c : Catalog) (ρ : Relabelling) (touched : Catalog.Retargeted) :
    Prop where
  foreignKeys : c.foreignKeys.Touches ρ touched.foreignKeys
  indexes : c.indexes.Touches ρ touched.indexes

/-- The catalog in which foreign keys and indexes with a default name have kept the name of a
touched row. -/
def Catalog.keepNames (c : Catalog) (touched : Catalog.Retargeted) : Catalog :=
  { c with
    foreignKeys := c.foreignKeys.keepNames touched.foreignKeys
    indexes := c.indexes.keepNames touched.indexes }

namespace Collection

variable {α : Type} [Row α] [Labelled α] {c : Collection α} {ρ : Relabelling}

theorem touches_none : c.Touches .none [] where
  relabelled _ hx := absurd hx List.not_mem_nil
  changed y _ hy := absurd (relabel_none y) hy

/-- **An update touches the rows that it selects.** -/
theorem touches_of_update {selects : α → Bool} {change : α → α}
    (h : ∀ x, (if selects x then change x else x) = relabel ρ x) :
    c.Touches ρ ((c.rows.filter selects).map change) where
  relabelled x hx := by
    obtain ⟨y, hy, rfl⟩ := List.mem_map.1 hx
    obtain ⟨hy, hs⟩ := List.mem_filter.1 hy
    exact ⟨y, hy, by rw [← h y, if_pos hs]⟩
  changed y hy hne := by
    cases hs : selects y with
    | true =>
      rw [← h y, if_pos hs]
      exact List.mem_map_of_mem (List.mem_filter.2 ⟨hy, hs⟩)
    | false => exact absurd (by rw [← h y, hs, if_neg Bool.false_ne_true]) hne

theorem Touches.mem_rows {d : Collection α} {touched : List α} (h : c.Touches ρ touched)
    (hd : d.rows = c.rows.map (relabel ρ)) : ∀ x ∈ touched, x ∈ d.rows := fun x hx => by
  obtain ⟨y, hy, rfl⟩ := h.relabelled x hx
  exact hd ▸ List.mem_map_of_mem hy

end Collection

namespace Propagate

/-! ## Two updates of one kind -/

section

variable {α : Type} [Row α]

/-- **Later rows replace earlier ones under the same key.** -/
theorem mem_mergeRows {x : α} : ∀ {rs rows : List α}, (rs.map Row.key).Nodup →
    (x ∈ mergeRows rows rs ↔ x ∈ rs ∨ x ∈ rows ∧ ∀ r ∈ rs, Row.key r ≠ Row.key x)
  | [], _, _ => by simp [mergeRows]
  | r :: rs, rows, hn => by
    obtain ⟨hr, hn⟩ := List.nodup_cons.1 hn
    have hkey {s : α} (hs : s ∈ rs) : Row.key s ≠ Row.key r := fun e =>
      hr (List.mem_map.2 ⟨s, hs, e⟩)
    rw [mergeRows]
    split
    next hany =>
      obtain ⟨y, hy, hyr⟩ := List.any_eq_true.1 hany
      rw [mem_mergeRows hn, List.mem_map, List.mem_cons]
      constructor
      · rintro (hx | ⟨⟨z, hz, rfl⟩, hx⟩)
        · exact .inl (.inr hx)
        · split
          · exact .inl (.inl rfl)
          next hzr =>
            rw [if_neg hzr] at hx
            refine .inr ⟨hz, fun s hs => ?_⟩
            rcases List.mem_cons.1 hs with rfl | hs
            · exact fun e => hzr (by simp [e])
            · exact hx s hs
      · rintro ((rfl | hx) | ⟨hx, hno⟩)
        · exact .inr ⟨⟨y, hy, if_pos hyr⟩, fun s hs => hkey hs⟩
        · exact .inl hx
        · refine .inr ⟨⟨x, hx, if_neg fun e => ?_⟩, fun s hs => hno s (List.mem_cons_of_mem _ hs)⟩
          exact hno r (List.mem_cons_self ..) (eq_of_beq e).symm
    next hnone =>
      rw [mem_mergeRows hn, List.mem_append, List.mem_singleton, List.mem_cons]
      constructor
      · rintro (hx | ⟨hx | rfl, hno⟩)
        · exact .inl (.inr hx)
        · refine .inr ⟨hx, fun s hs => ?_⟩
          rcases List.mem_cons.1 hs with rfl | hs
          · exact fun e => hnone (List.any_eq_true.2 ⟨x, hx, by simp [e]⟩)
          · exact hno s hs
        · exact .inl (.inl rfl)
      · rintro ((rfl | hx) | ⟨hx, hno⟩)
        · exact .inr ⟨.inr rfl, fun s hs => hkey hs⟩
        · exact .inl hx
        · exact .inr ⟨.inl hx, fun s hs => hno s (List.mem_cons_of_mem _ hs)⟩

variable [Labelled α] {c : Collection α} {ρ : Relabelling}

/-- **Two updates that keep keys touch the rows that either of them selects.** -/
theorem touches_of_updates {selects selects' : α → Bool} {change change' : α → α}
    (h : ∀ x, ((fun x => if selects' x then change' x else x) ∘
      fun x => if selects x then change x else x) x = relabel ρ x)
    (hkey : ∀ x, Row.key (change x) = Row.key x) (hkey' : ∀ x, Row.key (change' x) = Row.key x) :
    c.Touches ρ (mergeRows ((c.rows.filter selects).map change)
      (((c.rows.map fun x => if selects x then change x else x).filter selects').map change')) := by
  generalize hfirst : (fun x => if selects x then change x else x) = first at h ⊢
  have first_of {y : α} (hs : selects y = true) : first y = change y := by
    rw [← hfirst]
    exact if_pos hs
  have first_of_not {y : α} (hs : selects y = false) : first y = y := by
    rw [← hfirst]
    exact if_neg (by simp [hs])
  have key_first (y : α) : Row.key (first y) = Row.key y := by
    cases hs : selects y with
    | true => rw [first_of hs, hkey]
    | false => rw [first_of_not hs]
  have relabel_of {y : α} (hs : selects' (first y) = true) :
      relabel ρ y = change' (first y) := (h y).symm.trans (if_pos hs)
  have relabel_of_not {y : α} (hs : selects' (first y) = false) : relabel ρ y = first y :=
    (h y).symm.trans (if_neg (by simp [hs]))
  -- Neither update changes a key, so no row of the second result replaces another one of it.
  have hn : ((((c.rows.map first).filter selects').map change').map Row.key).Nodup := by
    have hkeys : c.rows.map Row.key = (c.rows.map first).map (Row.key ∘ change') := by
      rw [List.map_map]
      refine List.map_congr_left fun x _ => ?_
      rw [Function.comp_apply, Function.comp_apply, hkey', key_first]
    rw [List.map_map]
    refine List.Nodup.sublist ?_ c.keys_nodup
    rw [hkeys]
    exact List.filter_sublist.map _
  have mem_second {y : α} (hy : y ∈ c.rows) (hs : selects' (first y) = true) :
      relabel ρ y ∈ ((c.rows.map first).filter selects').map change' := by
    rw [relabel_of hs]
    exact List.mem_map_of_mem (List.mem_filter.2 ⟨List.mem_map_of_mem hy, hs⟩)
  constructor
  -- A row of the first result alone was not selected by the second update.
  case relabelled =>
    intro x hx
    rcases (mem_mergeRows hn).1 hx with hx | ⟨hx, hno⟩
    · obtain ⟨z, hz, rfl⟩ := List.mem_map.1 hx
      obtain ⟨hz, hs⟩ := List.mem_filter.1 hz
      obtain ⟨y, hy, rfl⟩ := List.mem_map.1 hz
      exact ⟨y, hy, relabel_of hs⟩
    · obtain ⟨y, hy, rfl⟩ := List.mem_map.1 hx
      obtain ⟨hy, hs⟩ := List.mem_filter.1 hy
      refine ⟨y, hy, ?_⟩
      cases hs' : selects' (first y) with
      | true =>
        refine absurd ?_ (hno _ (mem_second hy hs'))
        rw [relabel_of hs', hkey', key_first, hkey]
      | false => rw [relabel_of_not hs', first_of hs]
  case changed =>
    intro y hy hne
    refine (mem_mergeRows hn).2 ?_
    cases hs' : selects' (first y) with
    | true => exact .inl (mem_second hy hs')
    | false =>
      cases hs : selects y with
      | false => exact absurd (by rw [relabel_of_not hs', first_of_not hs]) hne
      | true =>
        rw [relabel_of_not hs', first_of hs]
        refine .inr ⟨List.mem_map_of_mem (List.mem_filter.2 ⟨hy, hs⟩), fun r hr e => ?_⟩
        obtain ⟨z, hz, rfl⟩ := List.mem_map.1 hr
        obtain ⟨hz, hzs⟩ := List.mem_filter.1 hz
        obtain ⟨w, hw, rfl⟩ := List.mem_map.1 hz
        rw [hkey', key_first, hkey] at e
        rw [Collection.eq_of_key_eq hw hy e, hs'] at hzs
        cases hzs

end

/-! ## Tables -/

section

variable {m : NameMap} {table : String} {c d : Catalog} {s : Sides}

/-- **Rows follow their tables** to a catalog, if the relabelled rows are the rows of one. -/
theorem exists_returns_retarget (h : c.IsRelabelled (.ofTables m) d) :
    ∃ touched, c.Touches (.ofTables m) touched ∧
      Returns (Catalog.retarget m) { c with tables := d.tables } touched d := by
  have hv : d.views = c.views :=
    Collection.ext_rows (h.views.trans (map_relabel_eq_self fun _ => rfl))
  have hw : d.viewColumns = c.viewColumns :=
    Collection.ext_rows (h.viewColumns.trans (map_relabel_eq_self fun _ => rfl))
  unfold Catalog.retarget
  split
  next hm =>
    rw [List.isEmpty_iff] at hm
    subst hm
    have hnone : Relabelling.ofTables [] = .none := Relabelling.ext (funext fun _ => rfl) rfl rfl
    rw [hnone] at h ⊢
    obtain rfl := h.eq_of_none
    exact ⟨{}, ⟨Collection.touches_none, Collection.touches_none⟩, returns_pure_iff.2 ⟨rfl, rfl⟩⟩
  next =>
    refine ⟨⟨_, _⟩, ⟨Collection.touches_of_update foreignKey_ofTables,
      Collection.touches_of_update index_ofTables⟩, ?_⟩
    have hcs := h.columns.trans (List.map_congr_left fun x _ => (column_ofTables x).symm)
    have hps := h.primaryKeys.trans (List.map_congr_left fun x _ => (primaryKey_ofTables x).symm)
    have his := h.indexes.trans (List.map_congr_left fun x _ => (index_ofTables x).symm)
    have hks := h.checks.trans (List.map_congr_left fun x _ => (check_ofTables x).symm)
    have hfs := h.foreignKeys.trans (List.map_congr_left fun x _ => (foreignKey_ofTables x).symm)
    refine returns_bind_iff.2 ⟨_, _, returns_update_of hcs, ?_⟩
    refine returns_bind_iff.2 ⟨_, _, returns_update_of hps, ?_⟩
    refine returns_bind_iff.2 ⟨_, _, returns_update_of his, ?_⟩
    refine returns_bind_iff.2 ⟨_, _, returns_update_of hks, ?_⟩
    refine returns_bind_iff.2 ⟨_, _, returns_update_of hfs, returns_pure_iff.2 ⟨rfl, ?_⟩⟩
    cases d
    obtain rfl := hv
    obtain rfl := hw
    rfl

/-- **Tables are renamed** if the relabelled rows are the rows of a catalog. -/
theorem exists_returns_renameTables {rs : List (Renaming Table)}
    (h : s.source.IsRelabelled (.ofTableRenames rs) d) :
    ∃ touched, s.source.Touches (.ofTableRenames rs) touched ∧
      Returns (renameTables rs) s () ⟨d, s.target.keepNames touched⟩ := by
  obtain ⟨touched, ht, hr⟩ := exists_returns_retarget h
  have hts := h.tables.trans (List.map_congr_left fun x _ => (table_ofTables x).symm)
  refine ⟨touched, ht, returns_bind_iff.2 ⟨touched, _, returns_onSource_of ?_,
    returns_onTarget_of (returns_keepNames ..)⟩⟩
  exact returns_bind_iff.2 ⟨_, _, returns_update_of hts, hr⟩

/-! ## Columns -/

theorem exists_returns_relabelColumns (h : c.IsRelabelled (.ofColumns table m) d) :
    ∃ touched, c.Touches (.ofColumns table m) touched ∧
      Returns (relabelColumns table m) c touched d := by
  have ht : d.tables = c.tables :=
    Collection.ext_rows (h.tables.trans (map_relabel_eq_self fun _ => rfl))
  have hk : d.checks = c.checks :=
    Collection.ext_rows (h.checks.trans (map_relabel_eq_self fun _ => rfl))
  have hv : d.views = c.views :=
    Collection.ext_rows (h.views.trans (map_relabel_eq_self fun _ => rfl))
  have hw : d.viewColumns = c.viewColumns :=
    Collection.ext_rows (h.viewColumns.trans (map_relabel_eq_self fun _ => rfl))
  have hcs := h.columns.trans (List.map_congr_left fun x _ => (column_of_columns x).symm)
  have his := h.indexes.trans (List.map_congr_left fun x _ => (index_of_columns x).symm)
  have hps := h.primaryKeys.trans (List.map_congr_left fun x _ => (primaryKey_of_columns x).symm)
  have hfs := h.foreignKeys.trans (foreignKeys_of_columns _).symm
  -- The first update of foreign keys keeps their keys, so it succeeds as well.
  have hkey : ∀ k : ForeignKey, Row.key (if k.table == table && k.columns.any m.renames then
      { k with columns := k.columns.map m.apply } else k) = Row.key k := fun k => by split <;> rfl
  have hn : ((c.foreignKeys.rows.map fun k =>
      if k.table == table && k.columns.any m.renames then
        { k with columns := k.columns.map m.apply } else k).map Row.key).Nodup := by
    rw [List.map_map, show (Row.key ∘ _) = Row.key from funext hkey]
    exact c.foreignKeys.keys_nodup
  refine ⟨⟨_, _⟩, ⟨touches_of_updates foreignKey_of_columns (fun _ => rfl) (fun _ => rfl),
    Collection.touches_of_update index_of_columns⟩, ?_⟩
  refine returns_bind_iff.2 ⟨_, _, returns_update_of hcs, ?_⟩
  refine returns_bind_iff.2 ⟨_, _, returns_update_of his, ?_⟩
  refine returns_bind_iff.2 ⟨_, _, returns_update_of hps, ?_⟩
  refine returns_bind_iff.2 ⟨_, { c with
    columns := d.columns
    indexes := d.indexes
    primaryKeys := d.primaryKeys
    foreignKeys := ⟨_, hn⟩ }, returns_update_of rfl, ?_⟩
  refine returns_bind_iff.2 ⟨_, _, returns_update_of hfs, returns_pure_iff.2 ⟨rfl, ?_⟩⟩
  cases d
  obtain rfl := ht
  obtain rfl := hk
  obtain rfl := hv
  obtain rfl := hw
  rfl

/-- **Columns are renamed** table by table, if the relabelled rows are the rows of a catalog. What
every turn keeps holds in the end. -/
theorem exists_returns_renameGroups (Invariant : List (String × NameMap) → Sides → Prop)
    (step : ∀ {table m groups s d touched}, Invariant ((table, m) :: groups) s →
      s.source.IsRelabelled (.ofColumns table m) d →
        s.source.Touches (.ofColumns table m) touched →
          Invariant groups ⟨d, s.target.keepNames touched⟩) :
    ∀ {groups : List (String × NameMap)} {s : Sides} {d : Catalog}, Invariant groups s →
      s.source.IsRelabelled (inTurn groups) d →
        ∃ target, Invariant [] ⟨d, target⟩ ∧
          Returns (groups.forM fun (table, m) => do
            let touched ← SidesEdit.onSource (relabelColumns table m)
            SidesEdit.onTarget (keepNames touched.foreignKeys touched.indexes)) s () ⟨d, target⟩
  | [], s, d, hs, h => by
    obtain rfl := h.eq_of_none
    exact ⟨s.target, hs, returns_pure_iff.2 ⟨rfl, rfl⟩⟩
  | (table, m) :: groups, s, d, hs, h => by
    obtain ⟨e, he, hd⟩ := h.split
    obtain ⟨touched, ht, hr⟩ := exists_returns_relabelColumns he
    obtain ⟨target, hi, hg⟩ := exists_returns_renameGroups Invariant step (step hs he ht) hd
    refine ⟨target, hi, returns_bind_iff.2 ⟨(), _, ?_, hg⟩⟩
    exact returns_bind_iff.2 ⟨touched, _, returns_onSource_of hr,
      returns_onTarget_of (returns_keepNames ..)⟩

/-! ## Views -/

/-- **Views are renamed** if the relabelled rows are the rows of a catalog. -/
theorem returns_renameViews_of {rs : List (Renaming View)}
    (h : s.source.IsRelabelled (.ofViewRenames rs) d) :
    Returns (renameViews rs) s () ⟨d, s.target⟩ := by
  have hvs := h.views.trans (List.map_congr_left fun x _ => (view_ofViews x).symm)
  have hws := h.viewColumns.trans (List.map_congr_left fun x _ => (viewColumn_ofViews x).symm)
  have hall {α : Type} [Row α] [Labelled α] {rows rows' : Collection α}
      (hr : rows'.rows = rows.rows.map (relabel (.ofViewRenames rs)))
      (hn : ∀ x : α, relabel (.ofViewRenames rs) x = x) : rows' = rows :=
    Collection.ext_rows (hr.trans (map_relabel_eq_self hn))
  have hts := hall h.tables fun _ => rfl
  have hcs := hall h.columns fun _ => rfl
  have hps := hall h.primaryKeys fun _ => by
    simp [relabel, Relabelling.ofViewRenames, Relabelling.ofViews]
  have hfs := hall h.foreignKeys fun _ => by
    simp [relabel, Relabelling.ofViewRenames, Relabelling.ofViews]
  have his := hall h.indexes fun _ => by
    simp [relabel, Relabelling.ofViewRenames, Relabelling.ofViews, IndexPart.mapColumn_id]
  have hks := hall h.checks fun _ => rfl
  unfold renameViews
  refine returns_onSource_of (returns_bind_iff.2 ⟨_, _, returns_update_of hvs, ?_⟩)
  refine returns_bind_iff.2 ⟨_, _, returns_update_of hws, returns_pure_iff.2 ⟨rfl, ?_⟩⟩
  cases d
  obtain rfl := hts
  obtain rfl := hcs
  obtain rfl := hps
  obtain rfl := hfs
  obtain rfl := his
  obtain rfl := hks
  rfl

end

end Propagate

end SchemaEvolution
