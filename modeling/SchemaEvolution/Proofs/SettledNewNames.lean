import Mathlib.Data.List.Perm.Basic
import SchemaEvolution.Proofs.Redeclaration
import SchemaEvolution.Proofs.Underway

/-!
# Settling new names

What happens if the target is the source under new names (`Catalog.IsRedeclared`) and the resolver
knows these names (`Resolver.Knows`).

**Tables, columns and views are offered exactly where they are renamed** (`NameMap.Fits.offer`,
`NewNames.Fits.columns_offered`), and the resolver answers with the renames.

**The answers are carried out.** They lead to the target, but for the names of primary keys
(`Sides.exists_returns_settle`), since default names tell foreign keys and indexes apart on the way.
-/

namespace SchemaEvolution

open Nameable

/-! ## Offers of moved rows -/

/-- **What is offered of rows with single names is what is renamed.** -/
theorem NameMap.Fits.offer {α φ : Type} {ν : φ → Type} [Row α] [Attributed α φ ν]
    {source target : Collection α} {m : NameMap} {used : String → Bool} (h : m.Fits used)
    (name : α → String) (hs : source.rows.map Row.key = source.rows.map fun x => .single (name x))
    (ht : target.rows.map Row.key = source.rows.map fun x => .single (m.apply (name x)))
    (hused : ∀ n, used n = source.hasKey (.single n)) :
    (Settled.offer (source.difference target)).Holds
      (m.map fun p => (.single p.1, .single p.2)) := by
  have hin {x : α} (hx : x ∈ source.rows) : used (name x) = true := by
    rw [hused, Collection.hasKey_iff, hs]
    exact List.mem_map_of_mem hx
  have hkeys : (source.rows.map name).map Key.single = source.rows.map Row.key := by
    rw [hs, List.map_map]
    rfl
  have hn : (source.rows.map name).Nodup :=
    List.Nodup.of_map Key.single (hkeys ▸ source.keys_nodup)
  obtain ⟨hd, hc⟩ := Collection.offer_of_moved hs ht fun x hx y hy e => by
    refine Collection.eq_of_key_eq hx hy ?_
    have hxy := h.eq_of_eq_apply (hin hx) (Key.single.inj e)
    exact List.inj_on_of_nodup_map (hkeys ▸ source.keys_nodup).of_map hx hy hxy ▸ rfl
  have hp := h.perm_moved name Key.single (fun _ _ => Key.single.inj) hn fun n => by
    rw [hused, Collection.hasKey_iff, ← hkeys,
      List.mem_map_of_injective (fun _ _ => Key.single.inj)]
  constructor
  · rw [Settled.offer, hd]
    simpa [Function.comp_def] using hp.map Prod.fst
  · rw [Settled.offer, hc]
    simpa [Function.comp_def] using hp.map Prod.snd

/-- Whether a key is in the scope of a table. -/
def Key.isIn (table : String) : Key → Bool
  | .scoped t _ => t == table
  | .single _ => false

section Columns

variable {source target d : Catalog} {r : NewNames} {t : String}

/-- What is offered of one table are its columns that move, each under its own or its new name. -/
theorem NewNames.Fits.keys_offered (h : r.Fits source) (hc : source.Owned)
    (htable : source.hasTable t = true) {rows : List Column} (name : String → String → String)
    (hrows : rows.map Row.key = (source.columns.rows.filter fun x =>
      Key.scoped (r.tables.apply x.table) x.name ≠
        .scoped (r.tables.apply x.table) ((r.columnsOf x.table).apply x.name)).map fun x =>
          .scoped (r.tables.apply x.table) (name x.table x.name)) :
    (rows.filter (·.table == r.tables.apply t)).map Row.key =
      ((source.columns.rows.filter (·.table == t)).filter fun x =>
        Key.scoped (r.tables.apply t) x.name ≠
          .scoped (r.tables.apply t) ((r.columnsOf t).apply x.name)).map fun x =>
            .scoped (r.tables.apply t) (name t x.name) := by
  have hfilter : (rows.filter (·.table == r.tables.apply t)).map Row.key =
      (rows.map Row.key).filter (Key.isIn (r.tables.apply t)) :=
    (List.filter_map (f := Row.key) (p := Key.isIn (r.tables.apply t))).symm
  rw [hfilter, hrows, List.filter_map, List.filter_filter, List.filter_filter]
  have hrest : source.columns.rows.filter (fun x =>
      (Key.isIn (r.tables.apply t) ∘ fun x =>
        .scoped (r.tables.apply x.table) (name x.table x.name)) x &&
        decide (Key.scoped (r.tables.apply x.table) x.name ≠
          .scoped (r.tables.apply x.table) ((r.columnsOf x.table).apply x.name))) =
      source.columns.rows.filter fun x =>
        decide (Key.scoped (r.tables.apply t) x.name ≠
          .scoped (r.tables.apply t) ((r.columnsOf t).apply x.name)) && x.table == t := by
    refine List.filter_congr fun x hx => ?_
    rw [Function.comp_apply, Key.isIn]
    by_cases hxt : x.table = t
    · rw [hxt, beq_self_eq_true, beq_self_eq_true, Bool.true_and, Bool.and_true]
    · -- Other tables are still others under their new names.
      have hne : r.tables.apply x.table ≠ r.tables.apply t := fun e =>
        hxt (h.tables.apply_inj (hc.columns x hx) htable e)
      rw [beq_eq_false_iff_ne.2 hxt, beq_eq_false_iff_ne.2 hne, Bool.false_and, Bool.and_false]
  rw [hrest]
  refine List.map_congr_left fun x hx => ?_
  have hxt : x.table = t := by simpa using (Bool.and_eq_true_iff.1 (List.mem_filter.1 hx).2).2
  rw [hxt]

theorem Catalog.nodup_columnNames (c : Catalog) (t : String) :
    ((c.columns.rows.filter (·.table == t)).map (·.name)).Nodup := by
  have hkeys : ((c.columns.rows.filter (·.table == t)).map (·.name)).map (Key.scoped t) =
      (c.columns.rows.filter (·.table == t)).map Row.key := by
    rw [List.map_map]
    refine List.map_congr_left fun x hx => ?_
    have hxt : x.table = t := by simpa using (List.mem_filter.1 hx).2
    exact congrArg (Key.scoped · x.name) hxt.symm
  refine List.Nodup.of_map (Key.scoped t) ?_
  exact hkeys ▸ c.columns.keys_nodup.sublist (List.filter_sublist.map _)

/-- **The columns of a table that are offered are the renamed ones.** -/
theorem NewNames.Fits.columns_offered (h : r.Fits source) (hc : source.Owned)
    (hd : d.columns.rows = source.columns.rows.map (relabel (.ofTables r.tables)))
    (ht : target.columns.rows = source.columns.rows.map (relabel r.relabelling))
    (htable : source.hasTable t = true) :
    Offer.Holds
      ⟨(d.columns.difference target.columns).created.filter (·.table == r.tables.apply t),
        (d.columns.difference target.columns).dropped.filter (·.table == r.tables.apply t)⟩
      (r.columnKeys t) := by
  have hdk : d.columns.rows.map Row.key =
      source.columns.rows.map fun x => .scoped (r.tables.apply x.table) x.name := by
    rw [hd, List.map_map]
    rfl
  have htk : target.columns.rows.map Row.key = source.columns.rows.map fun x =>
      .scoped (r.tables.apply x.table) ((r.columnsOf x.table).apply x.name) := by
    rw [ht, List.map_map]
    rfl
  obtain ⟨hdropped, hcreated⟩ := Collection.offer_of_moved hdk htk fun x hx y hy e => by
    obtain ⟨hxy, hn⟩ := Key.scoped.inj e
    have hxy := h.tables.apply_inj (hc.columns x hx) (hc.columns y hy) hxy
    refine Collection.eq_of_key_eq hx hy (congrArg₂ Key.scoped hxy ?_)
    exact (h.columns y.table).eq_of_eq_apply (hxy ▸ Collection.hasKey_key hx) hn
  have hp := (h.columns t).perm_moved Column.name (Key.scoped (r.tables.apply t))
    (fun _ _ e => (Key.scoped.inj e).2) (source.nodup_columnNames t) fun n => ?_
  · constructor
    · rw [h.keys_offered hc htable (fun _ n => n) hdropped]
      simpa [Function.comp_def, NewNames.columnKeys] using hp.map Prod.fst
    · rw [h.keys_offered hc htable (fun t n => (r.columnsOf t).apply n) hcreated]
      simpa [Function.comp_def, NewNames.columnKeys] using hp.map Prod.snd
  · rw [Catalog.hasColumn, Collection.hasKey_iff_exists, List.mem_map]
    simp only [List.mem_filter, beq_iff_eq, Row.key, Key.scoped.injEq, and_assoc]

/-! ## Settling -/

variable {σ : Type} {resolver : Resolver (StateM σ)}

theorem Sides.returns_carry {β : Type} {e : SidesEdit Unit} {s t : Sides} (v : β) {a : σ}
    (h : Returns e s () t) :
    Returns (do
      let sides ← s.carry e
      return (v, sides) : ExceptT Error (StateM σ) (β × Sides)) a (v, t) a :=
  returns_bind_iff.2 ⟨t, a, returns_except_iff.2 ⟨Sides.carry_eq_ok_iff.2 h, rfl⟩,
    returns_pure_iff.2 ⟨rfl, rfl⟩⟩

namespace Settled

theorem exists_returns_tables (hk : resolver.Knows r) (hr : r.Fits source) (hc : source.Owned)
    (ht : target.tables.rows = source.tables.rows.map (relabel r.relabelling)) (a : σ) :
    ∃ (resolution : Resolution Table) (d : Catalog) (touched : Catalog.Retargeted) (b : σ),
      Returns (tables resolver ⟨source, target⟩) a
        (resolution, ⟨d, target.keepNames touched⟩) b ∧
      resolution.created = [] ∧ resolution.deleted = [] ∧
      (renamedKeys resolution.renamed).Perm r.tableKeys ∧
      source.IsRelabelled (.ofTables r.tables) d ∧ source.Touches (.ofTables r.tables) touched := by
  have ho : (offer (source.tables.difference target.tables)).Holds r.tableKeys :=
    hr.tables.offer Table.name rfl (by rw [ht, List.map_map]; rfl) fun _ => rfl
  obtain ⟨resolution, b, ha, hcreated, hdeleted, hkeys⟩ := returns_answer_of hk.tables ho a
  have hm := matching_of_accounts (offer_between ..) (returns_answer ha)
  have hnames : (Propagate.tableNames resolution.renamed).Perm r.tables := by
    refine (List.map_perm_map_iff (f := fun p => (Key.single p.1, Key.single p.2)) ?_).1 ?_
    · intro p q e
      obtain ⟨h₁, h₂⟩ := Prod.mk.inj e
      exact Prod.ext (Key.single.inj h₁) (Key.single.inj h₂)
    · rw [Propagate.tableNames, List.map_map]
      exact hkeys
  have hρ : Relabelling.ofTableRenames resolution.renamed = .ofTables r.tables :=
    Relabelling.ext (funext (NameMap.apply_perm hnames hm.nodup_tableNames)) rfl rfl
  obtain ⟨d, hd⟩ := hc.placed.exists_isRelabelled hm.keptApart_tables
  obtain ⟨touched, htouched, hrun⟩ :=
    Propagate.exists_returns_renameTables (s := ⟨source, target⟩) hd
  rw [hρ] at hd htouched
  refine ⟨resolution, d, touched, b, ?_, hcreated, hdeleted, hkeys, hd, htouched⟩
  exact returns_bind_iff.2 ⟨resolution, b, ha, Sides.returns_carry resolution hrun⟩

/-- **Group by group the resolver answers with the renamed columns.** -/
theorem exists_returns_renamedColumns (hk : resolver.Knows r) (hr : r.Fits source) :
    ∀ {gs : List ColumnGroup}, (∀ g ∈ gs, ∃ t, source.hasTable t = true ∧
      g.table = r.tables.apply t ∧ Offer.Holds ⟨g.created, g.dropped⟩ (r.columnKeys t)) →
    ∀ a : σ, ∃ rs b, Returns (renamedColumns resolver gs) a rs b ∧
      ∀ k, k ∈ renamedKeys rs ↔ ∃ t, source.hasTable t = true ∧
        (∃ g ∈ gs, g.table = r.tables.apply t) ∧ k ∈ r.columnKeys t
  | [], _, a => ⟨[], a, returns_pure_iff.2 ⟨rfl, rfl⟩, by simp [renamedKeys]⟩
  | g :: gs, hgs, a => by
    obtain ⟨t, ht, hg, ho⟩ := hgs g (List.mem_cons_self ..)
    obtain ⟨resolution, b, ha, -, -, hkeys⟩ := returns_answer_of (hk.columns t) ho a
    obtain ⟨rs, b', hrs, hmem⟩ :=
      exists_returns_renamedColumns hk hr (fun g' hg' => hgs g' (List.mem_cons_of_mem _ hg')) b
    refine ⟨resolution.renamed ++ rs, b', ?_, fun k => ?_⟩
    · refine returns_bind_iff.2 ⟨resolution, b, hg ▸ ha, ?_⟩
      exact returns_bind_iff.2 ⟨rs, b', hrs, returns_pure_iff.2 ⟨rfl, rfl⟩⟩
    · rw [renamedKeys, List.map_append, List.mem_append, ← renamedKeys, ← renamedKeys, hmem,
        hkeys.mem_iff]
      constructor
      · rintro (hkt | ⟨u, hu, ⟨g', hg', e⟩, hku⟩)
        · exact ⟨t, ht, ⟨g, List.mem_cons_self .., hg⟩, hkt⟩
        · exact ⟨u, hu, ⟨g', List.mem_cons_of_mem _ hg', e⟩, hku⟩
      · rintro ⟨u, hu, ⟨g', hg', e⟩, hku⟩
        rcases List.mem_cons.1 hg' with rfl | hg'
        · rw [hr.tables.apply_inj ht hu (hg.symm.trans e)]
          exact .inl hku
        · exact .inr ⟨u, hu, ⟨g', hg', e⟩, hku⟩

end Settled

/-! ## Groups -/

theorem ColumnGroup.exists_mem_iff {created dropped : List Column} :
    (∃ g ∈ ofColumns created dropped [] [], g.table = t) ↔
      ∃ x ∈ created ++ dropped, x.table = t := by
  simp [ofColumns, or_and_right, exists_or]

theorem ColumnGroup.eq_of_mem {created dropped : List Column} {g : ColumnGroup}
    (h : g ∈ ofColumns created dropped [] []) :
    g.created = created.filter (·.table == g.table) ∧
      g.dropped = dropped.filter (·.table == g.table) := by
  simp only [ofColumns, List.mem_map] at h
  obtain ⟨t, -, rfl⟩ := h
  simp

theorem NewNames.exists_table_of_offered (hc : source.Owned)
    (hd : d.columns.rows = source.columns.rows.map (relabel (.ofTables r.tables)))
    (ht : target.columns.rows = source.columns.rows.map (relabel r.relabelling)) {x : Column}
    (hx : x ∈ (d.columns.difference target.columns).created ++
      (d.columns.difference target.columns).dropped) :
    ∃ t, source.hasTable t = true ∧ x.table = r.tables.apply t := by
  rcases List.mem_append.1 hx with hx | hx
  · have hx := (Collection.mem_created_iff.1 hx).1
    rw [ht] at hx
    obtain ⟨y, hy, rfl⟩ := List.mem_map.1 hx
    exact ⟨y.table, hc.columns y hy, rfl⟩
  · have hx := (Collection.mem_dropped_iff.1 hx).1
    rw [hd] at hx
    obtain ⟨y, hy, rfl⟩ := List.mem_map.1 hx
    exact ⟨y.table, hc.columns y hy, rfl⟩

/-- The answers about columns are the given new names. -/
theorem NewNames.Fits.column_ofColumnRenames (h : r.Fits source) {rs : List (Renaming Column)}
    (hm : Matching d.columns target.columns rs)
    (hkeys : ∀ k, k ∈ renamedKeys rs ↔ ∃ t, source.hasTable t = true ∧ k ∈ r.columnKeys t)
    (ht : source.hasTable t = true) (n : String) :
    (Relabelling.ofColumnRenames rs).column (r.tables.apply t) n = (r.columnsOf t).apply n := by
  show (Relabelling.columnNames rs (r.tables.apply t)).apply n = _
  by_cases hn : n ∈ (r.columnsOf t).map Prod.fst
  · obtain ⟨⟨_, n'⟩, hp, rfl⟩ := List.mem_map.1 hn
    rw [(h.columns t).apply_eq hp]
    obtain ⟨q, hq, e⟩ := List.mem_map.1 ((hkeys _).2 ⟨t, ht, List.mem_map_of_mem hp⟩)
    obtain ⟨hold, hnew⟩ := Prod.mk.inj e
    obtain ⟨hqt, hqn⟩ := Key.scoped.inj hold
    refine NameMap.apply_of_mem (hm.nodup_columnNames _) (List.mem_map.2 ⟨q, ?_, ?_⟩)
    · exact List.mem_filter.2 ⟨hq, beq_iff_eq.2 hqt⟩
    · exact Prod.ext hqn (Key.scoped.inj hnew).2
  · rw [NameMap.apply_of_not_mem hn]
    refine NameMap.apply_of_not_mem fun hmem => hn ?_
    obtain ⟨q, hq, e⟩ := Relabelling.mem_columnNames.1 hmem
    obtain ⟨u, hu, hk⟩ := (hkeys _).1 (List.mem_map_of_mem hq)
    obtain ⟨p, hp, e'⟩ := List.mem_map.1 hk
    have hpq := (congrArg Prod.fst e').trans e
    obtain ⟨htable, hname⟩ := Key.scoped.inj hpq
    rw [h.tables.apply_inj hu ht htable] at hp
    exact hname ▸ List.mem_map_of_mem hp

/-- **Every group holds the renamed columns of a table.** -/
theorem NewNames.Fits.groups_offered (h : r.Fits source) (hc : source.Owned)
    (hd : d.columns.rows = source.columns.rows.map (relabel (.ofTables r.tables)))
    (ht : target.columns.rows = source.columns.rows.map (relabel r.relabelling)) :
    ∀ g ∈ ColumnGroup.ofColumns (d.columns.difference target.columns).created
      (d.columns.difference target.columns).dropped [] [],
      ∃ t, source.hasTable t = true ∧ g.table = r.tables.apply t ∧
        Offer.Holds ⟨g.created, g.dropped⟩ (r.columnKeys t) := by
  intro g hg
  obtain ⟨x, hx, hxg⟩ := ColumnGroup.exists_mem_iff.1 ⟨g, hg, rfl⟩
  obtain ⟨t, htable, hxt⟩ := NewNames.exists_table_of_offered hc hd ht hx
  have hgt : g.table = r.tables.apply t := hxg.symm.trans hxt
  obtain ⟨hgc, hgd⟩ := ColumnGroup.eq_of_mem hg
  rw [hgc, hgd, hgt]
  exact ⟨t, htable, rfl, h.columns_offered hc hd ht htable⟩

/-- There is a group for every table with renamed columns. -/
theorem NewNames.Fits.exists_group (h : r.Fits source) (hc : source.Owned)
    (hd : d.columns.rows = source.columns.rows.map (relabel (.ofTables r.tables)))
    (ht : target.columns.rows = source.columns.rows.map (relabel r.relabelling))
    (htable : source.hasTable t = true) {k : Key × Key} (hk : k ∈ r.columnKeys t) :
    ∃ g ∈ ColumnGroup.ofColumns (d.columns.difference target.columns).created
      (d.columns.difference target.columns).dropped [] [], g.table = r.tables.apply t := by
  have ho := h.columns_offered hc hd ht htable
  obtain ⟨x, hx, -⟩ := List.mem_map.1 (ho.deleted.mem_iff.2 (List.mem_map_of_mem hk))
  obtain ⟨hx, hxt⟩ := List.mem_filter.1 hx
  exact ColumnGroup.exists_mem_iff.2 ⟨x, List.mem_append_right _ hx, beq_iff_eq.1 hxt⟩

namespace Settled

open Propagate

/-- Before the columns are renamed, the tables have their new names, and all renames of columns wait
for their turn. -/
theorem underway_columns (hl : Legible source r.relabelling)
    (ht : source.IsRedeclared r.relabelling target) {touched : Catalog.Retargeted}
    (htouched : source.Touches (.ofTables r.tables) touched)
    (hd : source.IsRelabelled (.ofTables r.tables) d) {rs : List (Renaming Column)}
    (hcolumn : ∀ t, source.hasTable t = true → ∀ n,
      (Relabelling.ofColumnRenames rs).column (r.tables.apply t) n = (r.columnsOf t).apply n) :
    Underway source target r.relabelling (.ofTables r.tables) (Propagate.columnNames rs)
      ⟨d, target.keepNames touched⟩ := by
  have hwaiting : Waiting source r.relabelling (.ofTables r.tables)
      (Propagate.columnNames rs) := by
    constructor
    case distinct =>
      rw [Propagate.columnNames, List.map_map]
      refine List.Nodup.map (fun _ _ h => h) ?_
      exact (List.mergeSort_perm _ _).nodup_iff.2 (nodup_eraseDups _)
    case table => exact fun _ _ => rfl
    case column =>
      intro t htable n
      rw [inTurn_columnNames]
      exact hcolumn t htable n
    case waiting => exact fun _ _ _ _ => rfl
  have hself := Catalog.IsRelabelled.refl source
  have hwithin : (Relabelling.none.andThen (.ofTables r.tables)).Within r.relabelling source :=
    hwaiting.within
  constructor
  case waiting => exact hwaiting
  case relabelled => exact hd
  case foreignKeys =>
    exact (Collection.Restored.init hl.foreignKeys ht.foreignKeys).step hl.foreignKeys
      hwithin hself.foreignKeys htouched.foreignKeys
  case indexes =>
    exact (Collection.Restored.init hl.indexes ht.indexes).step hl.indexes
      hwithin hself.indexes htouched.indexes
  case others => rfl

/-- **The columns are renamed**, and the target follows. -/
theorem exists_returns_columns (hk : resolver.Knows r) (hr : r.Fits source) (hc : source.Owned)
    (hl : Legible source r.relabelling) (ht : source.IsRedeclared r.relabelling target)
    {touched : Catalog.Retargeted} (htouched : source.Touches (.ofTables r.tables) touched)
    (hd : source.IsRelabelled (.ofTables r.tables) d) {tables : Resolution Table}
    (hcreated : tables.created = []) (hdeleted : tables.deleted = []) (a : σ) :
    ∃ (rs : List (Renaming Column)) (d' target' : Catalog) (b : σ),
      Returns (columns resolver tables ⟨d, target.keepNames touched⟩) a (rs, ⟨d', target'⟩) b ∧
      (∀ k, k ∈ renamedKeys rs ↔ ∃ t, source.hasTable t = true ∧ k ∈ r.columnKeys t) ∧
      d.IsRelabelled (.ofColumnRenames rs) d' ∧
      (∀ t, source.hasTable t = true → ∀ n,
        (Relabelling.ofColumnRenames rs).column (r.tables.apply t) n = (r.columnsOf t).apply n) ∧
      ∃ τ, Underway source target r.relabelling τ [] ⟨d', target'⟩ := by
  obtain ⟨rs, b, hrs, hmem⟩ :=
    exists_returns_renamedColumns hk hr (hr.groups_offered hc hd.columns ht.columns) a
  have hkeys : ∀ k, k ∈ renamedKeys rs ↔
      ∃ t, source.hasTable t = true ∧ k ∈ r.columnKeys t := by
    intro k
    rw [hmem]
    refine exists_congr fun t => and_congr_right fun htable => and_iff_right_of_imp fun hkt => ?_
    exact hr.exists_group hc hd.columns ht.columns htable hkt
  have hanswers : Returns (renamedColumns resolver (ColumnGroup.ofColumns
      (d.columns.difference target.columns).created (d.columns.difference target.columns).dropped
      tables.created tables.deleted)) a rs b := by rwa [hcreated, hdeleted]
  obtain ⟨hm, hsame⟩ := returns_renamedColumns (ColumnGroup.nodup_tables ..)
    (ColumnGroup.between tables.created tables.deleted) hanswers
  have hcolumn : ∀ t, source.hasTable t = true → ∀ n,
      (Relabelling.ofColumnRenames rs).column (r.tables.apply t) n = (r.columnsOf t).apply n :=
    fun t htable => hr.column_ofColumnRenames hm hkeys htable
  obtain ⟨d', hd'⟩ := (hd.placed hc.placed).exists_isRelabelled
    (hm.keptApart_columns fun q hq => (hsame q hq).1)
  have hturns := hd'
  rw [← inTurn_columnNames] at hturns
  obtain ⟨target', hdone, hrun⟩ := exists_returns_renameGroups
    (fun groups s => ∃ τ, Underway source target r.relabelling τ groups s)
    (fun ⟨τ, hτ⟩ he htouched => ⟨_, hτ.next hl he htouched⟩)
    ⟨_, underway_columns hl ht htouched hd hcolumn⟩ hturns
  refine ⟨rs, d', target', b, ?_, hkeys, hd', hcolumn, hdone⟩
  exact returns_bind_iff.2 ⟨rs, b, hanswers, Sides.returns_carry rs hrun⟩

theorem exists_returns_views (hk : resolver.Knows r) (hr : r.Fits source) {s : Sides}
    (hp : s.source.Placed) (hs : s.source.views = source.views)
    (ht : s.target.views.rows = source.views.rows.map (relabel r.relabelling)) (a : σ) :
    ∃ (rs : List (Renaming View)) (d : Catalog) (b : σ),
      Returns (views resolver s) a (rs, ⟨d, s.target⟩) b ∧ (renamedKeys rs).Perm r.viewKeys ∧
        s.source.IsRelabelled (.ofViews r.views) d := by
  have ho : (offer (s.source.views.difference s.target.views)).Holds r.viewKeys :=
    hr.views.offer View.name rfl (by rw [ht, hs, List.map_map]; rfl) fun _ => by rw [hs]
  obtain ⟨resolution, b, ha, -, -, hkeys⟩ := returns_answer_of hk.views ho a
  have hm := matching_of_accounts (offer_between ..) (returns_answer ha)
  have hnames : (viewNames resolution.renamed).Perm r.views := by
    refine (List.map_perm_map_iff (f := fun p => (Key.single p.1, Key.single p.2)) ?_).1 ?_
    · intro p q e
      obtain ⟨h₁, h₂⟩ := Prod.mk.inj e
      exact Prod.ext (Key.single.inj h₁) (Key.single.inj h₂)
    · rw [viewNames, List.map_map]
      exact hkeys
  have hρ : Relabelling.ofViewRenames resolution.renamed = .ofViews r.views :=
    Relabelling.ext rfl rfl (funext (NameMap.apply_perm hnames hm.nodup_viewNames))
  obtain ⟨d, hd⟩ := hp.exists_isRelabelled hm.keptApart_views
  refine ⟨resolution.renamed, d, b, ?_, hkeys, hρ ▸ hd⟩
  exact returns_bind_iff.2 ⟨resolution, b, ha,
    Sides.returns_carry resolution.renamed (returns_renameViews_of hd)⟩

end Settled

/-! ## All renames together -/

/-- The renames are those of the new names, as far as the source has what is renamed. -/
structure NewNames.Made (r : NewNames) (source : Catalog) (rs : Renames) : Prop where
  tables : ∀ k, k ∈ renamedKeys rs.tables ↔ k ∈ r.tableKeys
  columns : ∀ k, k ∈ renamedKeys rs.columns ↔
    ∃ t, source.hasTable t = true ∧ k ∈ r.columnKeys t
  views : ∀ k, k ∈ renamedKeys rs.views ↔ k ∈ r.viewKeys

open Propagate in
/-- **A resolver that knows the new names settles them.** What is left is how primary keys are
named. -/
theorem Sides.exists_returns_settle (hk : resolver.Knows r) (hr : r.Fits source)
    (hc : source.Owned) (hl : Legible source r.relabelling)
    (ht : source.IsRedeclared r.relabelling target) (a : σ) :
    ∃ x b, Returns (Sides.settle resolver ⟨source, target⟩) a x b ∧
      x.sides.source.SameButKeyNames x.sides.target ∧ r.Made source x.renames := by
  obtain ⟨tables, d₁, touched, a₁, h₁, hcreated, hdeleted, htables, hd₁, htouched⟩ :=
    Settled.exists_returns_tables hk hr hc ht.tables a
  obtain ⟨columns, d₂, target₂, a₂, h₂, hcolumns, hd₂, hcolumn, τ, hdone⟩ :=
    Settled.exists_returns_columns hk hr hc hl ht htouched hd₁ hcreated hdeleted a₁
  have hviews : d₂.views = source.views := by
    refine Collection.ext_rows ?_
    rw [hd₂.views, hd₁.views, map_relabel_eq_self fun _ => rfl, map_relabel_eq_self fun _ => rfl]
  have hothers := hdone.others
  simp only at hothers
  obtain ⟨views, d₃, a₃, h₃, hkeys, hd₃⟩ := Settled.exists_returns_views (s := ⟨d₂, target₂⟩) hk hr
    (hd₂.placed (hd₁.placed hc.placed)) hviews (by rw [hothers]; exact ht.views) a₂
  -- All renames together do what the given new names say.
  have hagrees : (((Relabelling.ofTables r.tables).andThen (.ofColumnRenames columns)).andThen
      (.ofViews r.views)).Agrees r.relabelling source :=
    ⟨fun _ _ => rfl, hcolumn, fun _ _ => rfl⟩
  have hd := hagrees.isRelabelled hc ((hd₁.trans hd₂).trans hd₃)
  obtain ⟨hforeignKeys, hindexes⟩ := hdone.restored hc
  refine ⟨⟨⟨d₃, target₂⟩, ⟨tables.renamed, columns, views⟩⟩, a₃, ?_, ?_,
    ⟨fun _ => htables.mem_iff, hcolumns, fun _ => hkeys.mem_iff⟩⟩
  · refine returns_bind_iff.2 ⟨_, a₁, h₁, returns_bind_iff.2 ⟨_, a₂, h₂, ?_⟩⟩
    exact returns_bind_iff.2 ⟨_, a₃, h₃, returns_pure_iff.2 ⟨rfl, rfl⟩⟩
  · have hsame {α : Type} [Row α] {rows rows' : Collection α} {xs : List α} (h : rows.rows = xs)
        (h' : rows'.rows = xs) : rows' = rows := Collection.ext_rows (h'.trans h.symm)
    constructor
    case tables => exact hsame hd.tables (by rw [hothers]; exact ht.tables)
    case columns => exact hsame hd.columns (by rw [hothers]; exact ht.columns)
    case primaryKeys =>
      show target₂.primaryKeys.rows = d₃.primaryKeys.rows.map _
      rw [hd.primaryKeys, List.map_map, hothers]
      exact ht.primaryKeys
    case foreignKeys => exact hsame hd.foreignKeys hforeignKeys
    case indexes => exact hsame hd.indexes hindexes
    case checks => exact hsame hd.checks (by rw [hothers]; exact ht.checks)
    case views => exact hsame hd.views (by rw [hothers]; exact ht.views)
    case viewColumns => exact hsame hd.viewColumns (by rw [hothers]; exact ht.viewColumns)

end Columns

end SchemaEvolution
