import SchemaEvolution.Proofs.Relabelling

/-!
# Renames that match rows

**Accepted renames match** what is only on the left with what is only on the right (`Matching`): no
row is on two of them, and no name that is given up is taken up by another one.

**So it makes no difference whether they happen at once or one by one** (`ofTableRenames_cons` and
its likes), and afterwards the old key is gone and the new key is there
(`Matching.old_not_mem`, `Matching.new_mem`).
-/

namespace SchemaEvolution

/-- Renames from rows that only `source` has to rows that only `target` has, each row once. -/
structure Matching {α : Type} [Row α] (source target : Collection α)
    (renamed : List (Renaming α)) : Prop where
  old_nodup : (renamed.map fun r => Row.key r.old).Nodup
  new_nodup : (renamed.map fun r => Row.key r.new).Nodup
  old_in_source : ∀ r ∈ renamed, source.hasKey (Row.key r.old) = true
  old_not_in_target : ∀ r ∈ renamed, target.hasKey (Row.key r.old) = false
  new_in_target : ∀ r ∈ renamed, target.hasKey (Row.key r.new) = true
  new_not_in_source : ∀ r ∈ renamed, source.hasKey (Row.key r.new) = false

namespace Relabelling

/-- Renames of tables, all at once. -/
def ofTableRenames (rs : List (Renaming Table)) : Relabelling :=
  .ofTables (Propagate.tableNames rs)

/-- The new names of the columns of a table. -/
def columnNames (rs : List (Renaming Column)) (table : String) : NameMap :=
  (rs.filter (·.old.table == table)).map fun r => (r.old.name, r.new.name)

def ofColumnRenames (rs : List (Renaming Column)) : Relabelling where
  column t name := (columnNames rs t).apply name

def ofViewRenames (rs : List (Renaming View)) : Relabelling :=
  .ofViews (Propagate.viewNames rs)

end Relabelling

/-- What everything is called after the renames of a run. -/
def Renames.relabelling (r : Renames) : Relabelling :=
  ((Relabelling.ofTableRenames r.tables).andThen (.ofColumnRenames r.columns)).andThen
    (.ofViewRenames r.views)

namespace Matching

variable {α : Type} [Row α] {source target : Collection α} {r : Renaming α}
  {rs : List (Renaming α)}

theorem tail (h : Matching source target (r :: rs)) : Matching source target rs where
  old_nodup := (List.nodup_cons.1 h.old_nodup).2
  new_nodup := (List.nodup_cons.1 h.new_nodup).2
  old_in_source s hs := h.old_in_source s (List.mem_cons_of_mem _ hs)
  old_not_in_target s hs := h.old_not_in_target s (List.mem_cons_of_mem _ hs)
  new_in_target s hs := h.new_in_target s (List.mem_cons_of_mem _ hs)
  new_not_in_source s hs := h.new_not_in_source s (List.mem_cons_of_mem _ hs)

theorem head (h : Matching source target (r :: rs)) : Matching source target [r] where
  old_nodup := List.nodup_singleton _
  new_nodup := List.nodup_singleton _
  old_in_source s hs := h.old_in_source s (List.mem_singleton.1 hs ▸ List.mem_cons_self ..)
  old_not_in_target s hs := h.old_not_in_target s (List.mem_singleton.1 hs ▸ List.mem_cons_self ..)
  new_in_target s hs := h.new_in_target s (List.mem_singleton.1 hs ▸ List.mem_cons_self ..)
  new_not_in_source s hs := h.new_not_in_source s (List.mem_singleton.1 hs ▸ List.mem_cons_self ..)

theorem perm {qs : List (Renaming α)} (h : Matching source target rs) (hp : rs.Perm qs) :
    Matching source target qs where
  old_nodup := (hp.map _).nodup_iff.1 h.old_nodup
  new_nodup := (hp.map _).nodup_iff.1 h.new_nodup
  old_in_source s hs := h.old_in_source s (hp.mem_iff.2 hs)
  old_not_in_target s hs := h.old_not_in_target s (hp.mem_iff.2 hs)
  new_in_target s hs := h.new_in_target s (hp.mem_iff.2 hs)
  new_not_in_source s hs := h.new_not_in_source s (hp.mem_iff.2 hs)

theorem old_ne_old (h : Matching source target (r :: rs)) {s : Renaming α} (hs : s ∈ rs) :
    Row.key s.old ≠ Row.key r.old :=
  fun e => (List.nodup_cons.1 h.old_nodup).1 (List.mem_map.2 ⟨s, hs, e⟩)

theorem new_ne_new (h : Matching source target (r :: rs)) {s : Renaming α} (hs : s ∈ rs) :
    Row.key s.new ≠ Row.key r.new :=
  fun e => (List.nodup_cons.1 h.new_nodup).1 (List.mem_map.2 ⟨s, hs, e⟩)

theorem old_ne_new (h : Matching source target rs) {s : Renaming α} (hr : r ∈ rs) (hs : s ∈ rs) :
    Row.key s.old ≠ Row.key r.new := by
  intro e
  have := h.old_in_source s hs
  rw [e, h.new_not_in_source r hr] at this
  cases this

theorem eq_of_new (h : Matching source target rs) {s : Renaming α} (hr : r ∈ rs) (hs : s ∈ rs)
    (e : Row.key s.new = Row.key r.new) : s = r :=
  List.inj_on_of_nodup_map h.new_nodup hs hr e

end Matching

/-! ## One by one -/

namespace Relabelling

theorem ofTableRenames_cons {source target : Collection Table} {r : Renaming Table}
    {rs : List (Renaming Table)} (h : Matching source target (r :: rs)) :
    ofTableRenames (r :: rs) =
      (ofTables [(r.old.name, r.new.name)]).andThen (ofTableRenames rs) := by
  have hold : r.old.name ∉ (Propagate.tableNames rs).map Prod.fst := by
    simp only [Propagate.tableNames, List.map_map, List.mem_map, not_exists, not_and]
    intro s hs e
    exact h.old_ne_old hs (congrArg Key.single e)
  have hnew : r.new.name ∉ (Propagate.tableNames rs).map Prod.fst := by
    simp only [Propagate.tableNames, List.map_map, List.mem_map, not_exists, not_and]
    intro s hs e
    exact h.old_ne_new (List.mem_cons_self ..) (List.mem_cons_of_mem _ hs) (congrArg Key.single e)
  exact Relabelling.ext (funext fun n => NameMap.apply_cons hold hnew) rfl rfl

theorem ofViewRenames_cons {source target : Collection View} {r : Renaming View}
    {rs : List (Renaming View)} (h : Matching source target (r :: rs)) :
    ofViewRenames (r :: rs) = (ofViews [(r.old.name, r.new.name)]).andThen (ofViewRenames rs) := by
  have hold : r.old.name ∉ (Propagate.viewNames rs).map Prod.fst := by
    simp only [Propagate.viewNames, List.map_map, List.mem_map, not_exists, not_and]
    intro s hs e
    exact h.old_ne_old hs (congrArg Key.single e)
  have hnew : r.new.name ∉ (Propagate.viewNames rs).map Prod.fst := by
    simp only [Propagate.viewNames, List.map_map, List.mem_map, not_exists, not_and]
    intro s hs e
    exact h.old_ne_new (List.mem_cons_self ..) (List.mem_cons_of_mem _ hs) (congrArg Key.single e)
  exact Relabelling.ext rfl rfl (funext fun n => NameMap.apply_cons hold hnew)

theorem mem_columnNames {rs : List (Renaming Column)} {t n : String} :
    n ∈ (columnNames rs t).map Prod.fst ↔ ∃ r ∈ rs, Row.key r.old = .scoped t n := by
  simp only [columnNames, List.map_map, List.mem_map, List.mem_filter, beq_iff_eq, Row.key,
    Key.scoped.injEq, Function.comp_apply]
  exact exists_congr fun r => by tauto

theorem ofColumnRenames_cons {source target : Collection Column} {r : Renaming Column}
    {rs : List (Renaming Column)} (h : Matching source target (r :: rs))
    (ht : r.new.table = r.old.table) :
    ofColumnRenames (r :: rs) =
      (ofColumns r.new.table [(r.old.name, r.new.name)]).andThen (ofColumnRenames rs) := by
  have hold : r.old.name ∉ (columnNames rs r.old.table).map Prod.fst := by
    rw [mem_columnNames]
    intro h'
    obtain ⟨s, hs, e⟩ := h'
    exact h.old_ne_old hs e
  have hnew : r.new.name ∉ (columnNames rs r.old.table).map Prod.fst := by
    rw [mem_columnNames, ← ht]
    intro h'
    obtain ⟨s, hs, e⟩ := h'
    exact h.old_ne_new (List.mem_cons_self ..) (List.mem_cons_of_mem _ hs) e
  refine Relabelling.ext rfl (funext fun t => funext fun n => ?_) rfl
  simp only [ofColumnRenames, ofColumns, andThen]
  rw [ht]
  by_cases hrt : t = r.old.table
  · subst hrt
    have hc : columnNames (r :: rs) r.old.table =
        (r.old.name, r.new.name) :: columnNames rs r.old.table := by
      simp [columnNames]
    rw [if_pos rfl, hc, NameMap.apply_cons hold hnew]
    rfl
  · have hc : columnNames (r :: rs) t = columnNames rs t := by
      have : (r.old.table == t) = false := by simpa using Ne.symm hrt
      simp [columnNames, this]
    rw [if_neg hrt, hc]
    rfl

end Relabelling

/-! ## Keys after renames -/

/-- A relabelling gives renamed rows their new keys, and leaves the keys of other rows. -/
structure Relabelling.Follows {α : Type} [Row α] (ρ : Relabelling) (renamed : List (Renaming α)) :
    Prop where
  old : ∀ r ∈ renamed, ρ.key (Row.kind α) (Row.key r.old) = Row.key r.new
  other : ∀ x : α, (∀ r ∈ renamed, Row.key r.old ≠ Row.key x) →
    ρ.key (Row.kind α) (Row.key x) = Row.key x

namespace Matching

variable {α : Type} [Row α] [Labelled α] {source source' target : Collection α}
  {rs : List (Renaming α)} {r : Renaming α} {ρ : Relabelling}

theorem exists_of_mem (hρ : ρ.Follows rs) (hs : source'.rows = source.rows.map (relabel ρ)) {x : α}
    (hx : x ∈ source'.rows) : ∃ y ∈ source.rows, relabel ρ y = x ∧
      ((∃ r ∈ rs, Row.key r.old = Row.key y ∧ Row.key x = Row.key r.new) ∨
        (∀ r ∈ rs, Row.key r.old ≠ Row.key y) ∧ Row.key x = Row.key y) := by
  rw [hs] at hx
  obtain ⟨y, hy, rfl⟩ := List.mem_map.1 hx
  refine ⟨y, hy, rfl, ?_⟩
  rw [key_relabel]
  by_cases hr : ∃ r ∈ rs, Row.key r.old = Row.key y
  · obtain ⟨r, hr, e⟩ := hr
    exact .inl ⟨r, hr, e, by rw [← e, hρ.old r hr]⟩
  · push Not at hr
    exact .inr ⟨hr, hρ.other y hr⟩

/-- **After renames the old key is gone.** -/
theorem old_not_mem (h : Matching source target rs) (hρ : ρ.Follows rs)
    (hs : source'.rows = source.rows.map (relabel ρ)) (hr : r ∈ rs) :
    source'.hasKey (Row.key r.old) = false := by
  rw [Collection.hasKey_eq_false_iff]
  intro x hx e
  obtain ⟨y, hy, -, ⟨q, hq, -, hqx⟩ | ⟨hno, hyx⟩⟩ := exists_of_mem hρ hs hx
  · exact h.old_ne_new hq hr (e ▸ hqx)
  · exact hno r hr (by rw [← e, hyx])

/-- **After renames the new key is there.** -/
theorem new_mem (h : Matching source target rs) (hρ : ρ.Follows rs)
    (hs : source'.rows = source.rows.map (relabel ρ)) (hr : r ∈ rs) :
    source'.hasKey (Row.key r.new) = true := by
  obtain ⟨y, hy, e⟩ := Collection.hasKey_iff_exists.1 (h.old_in_source r hr)
  refine Collection.hasKey_iff_exists.2 ⟨relabel ρ y, hs ▸ List.mem_map_of_mem hy, ?_⟩
  rw [key_relabel, e, hρ.old r hr]

theorem not_renamed (h : Matching source target rs) (hρ : ρ.Follows rs)
    (hs : source'.rows = source.rows.map (relabel ρ)) {x : α} (hx : x ∈ source'.rows)
    (hxt : target.hasKey (Row.key x) = false) :
    ∃ y ∈ source.rows, relabel ρ y = x ∧ Row.key x = Row.key y := by
  obtain ⟨y, hy, hyx, ⟨q, hq, -, hqx⟩ | ⟨-, e⟩⟩ := exists_of_mem hρ hs hx
  · rw [hqx, h.new_in_target q hq] at hxt
    cases hxt
  · exact ⟨y, hy, hyx, e⟩

/-- After one renaming the others still match. -/
theorem step (h : Matching source target (r :: rs)) (hρ : ρ.Follows [r])
    (hs : source'.rows = source.rows.map (relabel ρ)) : Matching source' target rs where
  old_nodup := h.tail.old_nodup
  new_nodup := h.tail.new_nodup
  old_not_in_target := h.tail.old_not_in_target
  new_in_target := h.tail.new_in_target
  old_in_source s hsm := by
    obtain ⟨y, hy, e⟩ := Collection.hasKey_iff_exists.1 (h.tail.old_in_source s hsm)
    refine Collection.hasKey_iff_exists.2 ⟨relabel ρ y, hs ▸ List.mem_map_of_mem hy, ?_⟩
    rw [key_relabel, hρ.other y, e]
    intro q hq e'
    rw [List.mem_singleton.1 hq, e] at e'
    exact h.old_ne_old hsm e'.symm
  new_not_in_source s hsm := by
    rw [Collection.hasKey_eq_false_iff]
    intro x hx e
    obtain ⟨y, hy, -, ⟨q, hq, -, hqx⟩ | ⟨-, hyx⟩⟩ := exists_of_mem hρ hs hx
    · rw [List.mem_singleton.1 hq, e] at hqx
      exact h.new_ne_new hsm hqx
    · have hno := Collection.hasKey_eq_false_iff.1 (h.tail.new_not_in_source s hsm) y hy
      exact hno (hyx.symm.trans e)

end Matching

/-! ## Renames of one kind -/

theorem Matching.nodup_tableNames {source target : Collection Table} {rs : List (Renaming Table)}
    (h : Matching source target rs) : ((Propagate.tableNames rs).map Prod.fst).Nodup := by
  refine List.Nodup.of_map Key.single ?_
  rw [Propagate.tableNames, List.map_map, List.map_map]
  exact h.old_nodup

theorem Matching.nodup_viewNames {source target : Collection View} {rs : List (Renaming View)}
    (h : Matching source target rs) : ((Propagate.viewNames rs).map Prod.fst).Nodup := by
  refine List.Nodup.of_map Key.single ?_
  rw [Propagate.viewNames, List.map_map, List.map_map]
  exact h.old_nodup

/-- Names that are distinct together with their tables are distinct in each table. -/
theorem Relabelling.nodup_of_table {rs : List (Renaming Column)} {name : Renaming Column → String}
    (h : (rs.map fun r => (r.old.table, name r)).Nodup) (t : String) :
    ((rs.filter (·.old.table == t)).map name).Nodup := by
  refine List.Nodup.of_map (Prod.mk t) ?_
  have hpairs : ((rs.filter (·.old.table == t)).map name).map (Prod.mk t) =
      (rs.filter (·.old.table == t)).map fun r => (r.old.table, name r) := by
    rw [List.map_map]
    refine List.map_congr_left fun r hr => ?_
    rw [eq_of_beq (List.mem_filter.1 hr).2]
    rfl
  rw [hpairs]
  exact h.sublist (List.filter_sublist.map _)

theorem Relabelling.map_fst_columnNames (rs : List (Renaming Column)) (t : String) :
    (columnNames rs t).map Prod.fst = (rs.filter (·.old.table == t)).map (·.old.name) := by
  rw [columnNames, List.map_map]
  rfl

theorem Relabelling.map_snd_columnNames (rs : List (Renaming Column)) (t : String) :
    (columnNames rs t).map Prod.snd = (rs.filter (·.old.table == t)).map (·.new.name) := by
  rw [columnNames, List.map_map]
  rfl

theorem Matching.nodup_columnNames {source target : Collection Column}
    {rs : List (Renaming Column)} (h : Matching source target rs) (t : String) :
    ((Relabelling.columnNames rs t).map Prod.fst).Nodup := by
  rw [Relabelling.map_fst_columnNames]
  refine Relabelling.nodup_of_table (List.Nodup.of_map (fun p => Key.scoped p.1 p.2) ?_) t
  rw [List.map_map]
  exact h.old_nodup

theorem Relabelling.ofTableRenames_follows {source target : Collection Table}
    {rs : List (Renaming Table)} (h : Matching source target rs) :
    (ofTableRenames rs).Follows rs where
  old r hr := by
    exact congrArg Key.single
      (NameMap.apply_of_mem h.nodup_tableNames (List.mem_map.2 ⟨r, hr, rfl⟩))
  other x hx := by
    refine congrArg Key.single (NameMap.apply_of_not_mem ?_)
    simp only [Propagate.tableNames, List.map_map, List.mem_map, not_exists, not_and]
    exact fun r hr e => hx r hr (congrArg Key.single e)

theorem Relabelling.ofViewRenames_follows {source target : Collection View}
    {rs : List (Renaming View)} (h : Matching source target rs) :
    (ofViewRenames rs).Follows rs where
  old r hr := by
    exact congrArg Key.single
      (NameMap.apply_of_mem h.nodup_viewNames (List.mem_map.2 ⟨r, hr, rfl⟩))
  other x hx := by
    refine congrArg Key.single (NameMap.apply_of_not_mem ?_)
    simp only [Propagate.viewNames, List.map_map, List.mem_map, not_exists, not_and]
    exact fun r hr e => hx r hr (congrArg Key.single e)

theorem Relabelling.ofColumnRenames_follows {source target : Collection Column}
    {rs : List (Renaming Column)} (h : Matching source target rs)
    (ht : ∀ r ∈ rs, r.new.table = r.old.table) : (ofColumnRenames rs).Follows rs where
  old r hr := by
    have hm : (r.old.name, r.new.name) ∈ columnNames rs r.old.table :=
      List.mem_map.2 ⟨r, List.mem_filter.2 ⟨hr, beq_self_eq_true _⟩, rfl⟩
    show Key.scoped r.old.table ((columnNames rs r.old.table).apply r.old.name) = Row.key r.new
    rw [NameMap.apply_of_mem (h.nodup_columnNames _) hm, ← ht r hr]
    rfl
  other x hx := by
    refine congrArg (Key.scoped x.table) (NameMap.apply_of_not_mem ?_)
    rw [mem_columnNames]
    intro h'
    obtain ⟨r, hr, e⟩ := h'
    exact hx r hr e

/-! ## In any order -/

namespace Relabelling

theorem ofTableRenames_perm {source target : Collection Table} {rs qs : List (Renaming Table)}
    (h : Matching source target rs) (hp : rs.Perm qs) : ofTableRenames rs = ofTableRenames qs := by
  exact Relabelling.ext (funext (NameMap.apply_perm (hp.map _) h.nodup_tableNames)) rfl rfl

theorem ofColumnRenames_perm {source target : Collection Column} {rs qs : List (Renaming Column)}
    (h : Matching source target rs) (hp : rs.Perm qs) :
    ofColumnRenames rs = ofColumnRenames qs := by
  refine Relabelling.ext rfl (funext fun t => funext fun n => ?_) rfl
  exact NameMap.apply_perm ((hp.filter _).map _) (h.nodup_columnNames t) n

theorem ofViewRenames_perm {source target : Collection View} {rs qs : List (Renaming View)}
    (h : Matching source target rs) (hp : rs.Perm qs) : ofViewRenames rs = ofViewRenames qs := by
  exact Relabelling.ext rfl rfl (funext (NameMap.apply_perm (hp.map _) h.nodup_viewNames))

end Relabelling

end SchemaEvolution
