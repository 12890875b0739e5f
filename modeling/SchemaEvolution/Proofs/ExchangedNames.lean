import Mathlib.Data.List.Sort
import SchemaEvolution.Proofs.CarriedRenames
import SchemaEvolution.Proofs.Entities

/-!
# Names that are exchanged

All renames of a kind happen at once, so names may be swapped or handed on in a chain.

**What it takes** (`NameMap.Exchanges`): no name is given up twice, none is taken up twice, and a
name that is taken up is given up as well or is not in use. Then the reversed renames give every
name in use back (`NameMap.Exchanges.apply_reversed_apply`).

**A relabelling leads to a catalog if its effect on keys can be undone**
(`Catalog.exists_isRelabelled_of_undone`): rows that came to share a key would share it still. So
nothing has to be known about the rows, which may mention names that do not exist.

**Tables** (`Propagate.tables_exchanged`): the renames succeed, and the reversed ones lead back to
the same catalog. **Columns** (`Propagate.columns_exchanged`): the renames succeed, each reference
is mapped by the renames of the table that it is made to, and the order of the renames makes no
difference.
-/

namespace SchemaEvolution

/-! ## New names and back -/

namespace NameMap

variable {m : NameMap} {Used : String → Prop} {n : String}

/-- The old names for the new ones. -/
def reversed (m : NameMap) : NameMap :=
  m.map Prod.swap

/-- The names are handed on among the old ones, or to names that are not in use. -/
structure Exchanges (m : NameMap) (Used : String → Prop) : Prop where
  old_nodup : (m.map Prod.fst).Nodup
  new_nodup : (m.map Prod.snd).Nodup
  free : ∀ n ∈ m.map Prod.snd, n ∈ m.map Prod.fst ∨ ¬Used n

theorem map_fst_reversed (m : NameMap) : m.reversed.map Prod.fst = m.map Prod.snd := by
  rw [reversed, List.map_map]
  rfl

/-- **The reversed renames give names back.** -/
theorem Exchanges.apply_reversed_apply (h : m.Exchanges Used) (hn : Used n) :
    m.reversed.apply (m.apply n) = n := by
  by_cases hold : n ∈ m.map Prod.fst
  · obtain ⟨⟨a, b⟩, hab, rfl⟩ := List.mem_map.1 hold
    rw [apply_of_mem h.old_nodup hab]
    refine apply_of_mem ?_ (List.mem_map.2 ⟨_, hab, rfl⟩)
    rw [map_fst_reversed]
    exact h.new_nodup
  · rw [apply_of_not_mem hold]
    refine apply_of_not_mem fun hnew => ?_
    rw [map_fst_reversed] at hnew
    exact (h.free n hnew).elim hold fun hfree => hfree hn

end NameMap

/-! ## Relabellings that can be undone -/

/-- The names of the tables that a row mentions: its own or that of the table it belongs to, and
that of the table that a foreign key refers to. -/
def Entity.mentionedTables : Entity → List String
  | .foreignKey k => [k.table, k.target]
  | e => e.owner?.toList

/-- The names of tables that a catalog mentions anywhere. -/
def Catalog.mentionedTables (c : Catalog) : List String :=
  c.entities.flatMap Entity.mentionedTables

theorem Entity.relabel_tables_undone {e : Entity} {f g : String → String}
    (h : ∀ n ∈ e.mentionedTables, g (f n) = n) :
    (e.relabel { table := f }).relabel { table := g } = e := by
  cases e <;>
    simp_all [Entity.relabel, Labelled.relabel, mentionedTables, owner?, IndexPart.mapColumn_id]

namespace Catalog

variable {c d : Catalog} {ρ σ : Relabelling}

/-- **What can be undone on keys leads to a catalog.** -/
theorem exists_isRelabelled_of_undone
    (h : ∀ e ∈ c.entities, σ.key e.kind (ρ.key e.kind e.key) = e.key) :
    ∃ d, c.IsRelabelled ρ d := by
  refine exists_isRelabelled fun e he e' he' hkind hkey => eq_of_key_eq he he' hkind ?_
  rw [Entity.key_relabel, Entity.key_relabel, ← hkind] at hkey
  rw [← h e he, hkey, hkind, h e' he']

theorem rows_eq_of_undone {α : Type} [Row α] [Labelled α] {rows rows' : Collection α}
    (hr : rows'.rows = rows.rows.map (relabel ρ))
    (h : ∀ x ∈ rows.rows, relabel σ (relabel ρ x) = x) :
    rows.rows = rows'.rows.map (relabel σ) := by
  rw [hr, List.map_map]
  exact ((List.map_congr_left h).trans (List.map_id' _)).symm

/-- What can be undone on every row leads back. -/
theorem IsRelabelled.undone (hd : c.IsRelabelled ρ d)
    (h : ∀ e ∈ c.entities, (e.relabel ρ).relabel σ = e) : d.IsRelabelled σ c where
  tables := rows_eq_of_undone hd.tables fun x hx =>
    Entity.table.inj (h (.table x) (by simpa using hx))
  columns := rows_eq_of_undone hd.columns fun x hx =>
    Entity.column.inj (h (.column x) (by simpa using hx))
  primaryKeys := rows_eq_of_undone hd.primaryKeys fun x hx =>
    Entity.primaryKey.inj (h (.primaryKey x) (by simpa using hx))
  foreignKeys := rows_eq_of_undone hd.foreignKeys fun x hx =>
    Entity.foreignKey.inj (h (.foreignKey x) (by simpa using hx))
  indexes := rows_eq_of_undone hd.indexes fun x hx =>
    Entity.index.inj (h (.index x) (by simpa using hx))
  checks := rows_eq_of_undone hd.checks fun x hx =>
    Entity.check.inj (h (.check x) (by simpa using hx))
  views := rows_eq_of_undone hd.views fun x hx =>
    Entity.view.inj (h (.view x) (by simpa using hx))
  viewColumns := rows_eq_of_undone hd.viewColumns fun x hx =>
    Entity.viewColumn.inj (h (.viewColumn x) (by simpa using hx))

/-- **Exchanged tables**: a catalog in which they are relabelled, and the way back. -/
theorem exists_tables_exchanged {m : NameMap} (h : m.Exchanges (· ∈ c.mentionedTables)) :
    ∃ d, c.IsRelabelled (.ofTables m) d ∧ d.IsRelabelled (.ofTables m.reversed) c := by
  have hundone : ∀ e ∈ c.entities,
      (e.relabel (.ofTables m)).relabel (.ofTables m.reversed) = e := fun e he =>
    Entity.relabel_tables_undone fun n hn =>
      h.apply_reversed_apply (List.mem_flatMap.2 ⟨e, he, hn⟩)
  obtain ⟨d, hd⟩ := exists_isRelabelled_of_undone fun e he => by
    have hkey := congrArg Entity.key (hundone e he)
    rwa [Entity.key_relabel, Entity.key_relabel, Entity.kind_relabel] at hkey
  exact ⟨d, hd, hd.undone hundone⟩

end Catalog

/-! ## Tables -/

/-- The renaming back. -/
def Renaming.reversed {α : Type} (r : Renaming α) : Renaming α :=
  ⟨r.new, r.old⟩

namespace Propagate

variable {source target : Catalog}

theorem ofTables_reversed (rs : List (Renaming Table)) :
    Relabelling.ofTables (tableNames rs).reversed =
      .ofTableRenames (rs.map Renaming.reversed) := by
  rw [Relabelling.ofTableRenames, tableNames, tableNames, NameMap.reversed, List.map_map,
    List.map_map]
  rfl

/-- **Renames of tables happen at once and can be undone.** Old names may be handed on among the
tables, and new ones must not be mentioned in the source. Then every mention of a table is replaced
by its image, and nothing else changes; the reversed renames restore the source, whatever the target
is by then. -/
theorem tables_exchanged {rs : List (Renaming Table)} (hold : (rs.map (·.old.name)).Nodup)
    (hnew : (rs.map (·.new.name)).Nodup)
    (hfree : ∀ r ∈ rs, r.new.name ∈ rs.map (·.old.name) ∨
      r.new.name ∉ source.mentionedTables) :
    ∃ (image : String → String) (source' target' : Catalog),
      (∀ r ∈ rs, image r.old.name = r.new.name) ∧
      (∀ n, n ∉ rs.map (·.old.name) → image n = n) ∧
      source.IsRelabelled { table := image } source' ∧
      Returns (renameTables rs) ⟨source, target⟩ () ⟨source', target'⟩ ∧
      ∀ t, ∃ t',
        Returns (renameTables (rs.map Renaming.reversed)) ⟨source', t⟩ () ⟨source, t'⟩ := by
  have hfst : (tableNames rs).map Prod.fst = rs.map (·.old.name) := by
    rw [tableNames, List.map_map]
    rfl
  have hsnd : (tableNames rs).map Prod.snd = rs.map (·.new.name) := by
    rw [tableNames, List.map_map]
    rfl
  have hx : (tableNames rs).Exchanges (· ∈ source.mentionedTables) := by
    refine ⟨hfst ▸ hold, hsnd ▸ hnew, fun n hn => ?_⟩
    rw [hsnd] at hn
    obtain ⟨r, hr, rfl⟩ := List.mem_map.1 hn
    rw [hfst]
    exact hfree r hr
  obtain ⟨source', hthere, hback⟩ := Catalog.exists_tables_exchanged hx
  rw [ofTables_reversed] at hback
  obtain ⟨_, -, hrun⟩ :=
    @exists_returns_renameTables source' ⟨source, target⟩ rs hthere
  refine ⟨(tableNames rs).apply, source', _, fun r hr => ?_, fun n hn => ?_, hthere, hrun,
    fun t => ?_⟩
  · exact NameMap.apply_of_mem hx.old_nodup (List.mem_map.2 ⟨r, hr, rfl⟩)
  · exact NameMap.apply_of_not_mem (hfst ▸ hn)
  · obtain ⟨_, -, hrun'⟩ := exists_returns_renameTables (s := ⟨source', t⟩) hback
    exact ⟨_, hrun'⟩

/-- A draft of each page refers to the live page. -/
def drafts : Catalog where
  tables := ⟨[⟨"draft"⟩, ⟨"live"⟩], by decide⟩
  columns := ⟨[{ table := "draft", name := "page", type := "int" },
    { table := "live", name := "page", type := "int" }], by decide⟩
  primaryKeys := ⟨[.implicit "live" ["page"]], by decide⟩
  foreignKeys := ⟨[.implicit "draft" ["page"] "live" ["page"]], by decide⟩

/-- The drafts go live, and what was live goes to the archive. -/
def promotions : List (Renaming Table) :=
  [⟨⟨"draft"⟩, ⟨"live"⟩⟩, ⟨⟨"live"⟩, ⟨"archive"⟩⟩]

theorem tables_exchanged_of_promotions :
    (promotions.map (·.old.name)).Nodup ∧ (promotions.map (·.new.name)).Nodup ∧
      (∀ r ∈ promotions, r.new.name ∈ promotions.map (·.old.name) ∨
        r.new.name ∉ drafts.mentionedTables) ∧
      ∃ source' target', Returns (renameTables promotions) ⟨drafts, drafts⟩ () ⟨source', target'⟩ ∧
        source'.foreignKeys.rows =
          [⟨"live", "draft_page_live_page_fk", false, ["page"], "archive", ["page"], .noAction,
            .noAction⟩] ∧
        ∃ t, Returns (renameTables (promotions.map Renaming.reversed)) ⟨source', target'⟩ ()
          ⟨drafts, t⟩ := by
  obtain ⟨image, source', target', himage, -, hrel, hrun, hback⟩ :=
    @tables_exchanged drafts drafts promotions (by decide) (by decide) (by decide)
  have hdraft : image "draft" = "live" := himage _ (List.mem_cons_self ..)
  have hlive : image "live" = "archive" :=
    himage _ (List.mem_cons_of_mem _ (List.mem_cons_self ..))
  refine ⟨by decide, by decide, by decide, source', target', hrun, ?_, hback target'⟩
  rw [hrel.foreignKeys]
  simp [drafts, relabel, ForeignKey.implicit, ForeignKey.defaultName, hdraft, hlive]

end Propagate

/-! ## Columns -/

section

variable {rs qs : List (Renaming Column)} {c : Catalog}

theorem Relabelling.mem_old_columnNames {t n : String} :
    n ∈ (columnNames rs t).map Prod.fst ↔ (t, n) ∈ rs.map fun r => (r.old.table, r.old.name) := by
  rw [mem_columnNames]
  simp only [List.mem_map, Row.key, Key.scoped.injEq, Prod.mk.injEq]

/-- **Each table exchanges the names of its own columns.** -/
theorem Relabelling.exchanges_columnNames
    (hold : (rs.map fun r => (r.old.table, r.old.name)).Nodup)
    (hnew : (rs.map fun r => (r.old.table, r.new.name)).Nodup)
    (hfree : ∀ r ∈ rs, (r.old.table, r.new.name) ∈ rs.map (fun q => (q.old.table, q.old.name)) ∨
      c.columns.hasKey (.scoped r.old.table r.new.name) = false) (t : String) :
    (columnNames rs t).Exchanges fun n => c.columns.hasKey (.scoped t n) = true := by
  refine ⟨map_fst_columnNames rs t ▸ nodup_of_table hold t,
    map_snd_columnNames rs t ▸ nodup_of_table hnew t, fun n hn => ?_⟩
  rw [map_snd_columnNames] at hn
  obtain ⟨r, hr, rfl⟩ := List.mem_map.1 hn
  obtain ⟨hmem, ht⟩ := List.mem_filter.1 hr
  rw [mem_old_columnNames, Bool.not_eq_true, ← eq_of_beq ht]
  exact hfree r hmem

/-- **Exchanged columns**: a catalog in which they are relabelled. -/
theorem Catalog.exists_columns_exchanged
    (h : ∀ t, (Relabelling.columnNames rs t).Exchanges fun n =>
      c.columns.hasKey (.scoped t n) = true) :
    ∃ d, c.IsRelabelled (.ofColumnRenames rs) d := by
  refine exists_isRelabelled_of_undone
    (σ := { column := fun t n => (Relabelling.columnNames rs t).reversed.apply n }) fun e he => ?_
  cases e with
  | column x =>
    exact congrArg (Key.scoped x.table)
      ((h x.table).apply_reversed_apply (Collection.hasKey_key (by simpa using he)))
  | _ => rfl

namespace Propagate

/-- What is done to the columns of a table depends only on what each name becomes. -/
theorem relabelColumns_congr {table : String} {m m' : NameMap} (hr : m.renames = m'.renames)
    (ha : m.apply = m'.apply) : relabelColumns table m = relabelColumns table m' := by
  simp only [relabelColumns, hr, ha]

theorem tables_perm (hp : rs.Perm qs) :
    ((rs.map (·.old.table)).eraseDups.mergeSort fun a b => a ≤ b) =
      (qs.map (·.old.table)).eraseDups.mergeSort fun a b => a ≤ b := by
  have hdups : (rs.map (·.old.table)).eraseDups.Perm (qs.map (·.old.table)).eraseDups := by
    refine (List.perm_ext_iff_of_nodup (nodup_eraseDups _) (nodup_eraseDups _)).2 fun t => ?_
    rw [List.mem_eraseDups, List.mem_eraseDups, (hp.map _).mem_iff]
  refine List.Perm.eq_of_pairwise' (r := (· ≤ ·)) (List.pairwise_mergeSort' (· ≤ ·) _)
    (List.pairwise_mergeSort' (· ≤ ·) _) ?_
  exact ((List.mergeSort_perm _ _).trans hdups).trans (List.mergeSort_perm _ _).symm

/-- **The order of the renames makes no difference**, whatever the catalogs are. -/
theorem renameColumns_perm (hp : rs.Perm qs)
    (hold : (rs.map fun r => (r.old.table, r.old.name)).Nodup) :
    renameColumns rs = renameColumns qs := by
  have hnames (t : String) :
      (Relabelling.columnNames rs t).Perm (Relabelling.columnNames qs t) :=
    (hp.filter _).map _
  have hstep (t : String) : relabelColumns t (Relabelling.columnNames rs t) =
      relabelColumns t (Relabelling.columnNames qs t) := by
    refine relabelColumns_congr (funext fun n => (hnames t).any_eq) (funext fun n => ?_)
    refine NameMap.apply_perm (hnames t) ?_ n
    rw [Relabelling.map_fst_columnNames]
    exact Relabelling.nodup_of_table hold t
  unfold renameColumns columnNames
  simp only [List.forM_eq_forM, List.forM_map, tables_perm hp]
  refine congrArg _ (funext fun t => ?_)
  exact congrArg (SidesEdit.onSource · >>= _) (hstep t)

/-- **Renames of columns happen at once, and each table maps the references to its own columns.**
Old names may be handed on among the columns of a table, and new ones must not be columns of it.
Then every reference to a column is replaced by its image in the table that it is made to, and
nothing else changes, in whatever order the renames are given. -/
theorem columns_exchanged {source target : Catalog}
    (hold : (rs.map fun r => (r.old.table, r.old.name)).Nodup)
    (hnew : (rs.map fun r => (r.old.table, r.new.name)).Nodup)
    (hfree : ∀ r ∈ rs, (r.old.table, r.new.name) ∈ rs.map (fun q => (q.old.table, q.old.name)) ∨
      source.columns.hasKey (.scoped r.old.table r.new.name) = false) :
    ∃ (image : String → String → String) (source' target' : Catalog),
      (∀ r ∈ rs, image r.old.table r.old.name = r.new.name) ∧
      (∀ t n, (t, n) ∉ rs.map (fun r => (r.old.table, r.old.name)) → image t n = n) ∧
      source.IsRelabelled { column := image } source' ∧
      ∀ qs, rs.Perm qs → Returns (renameColumns qs) ⟨source, target⟩ () ⟨source', target'⟩ := by
  have hx := Relabelling.exchanges_columnNames hold hnew hfree
  obtain ⟨source', hthere⟩ := Catalog.exists_columns_exchanged hx
  obtain ⟨target', -, hrun⟩ := exists_returns_renameGroups (fun _ _ => True)
    (fun _ _ _ => trivial) (s := ⟨source, target⟩) trivial (inTurn_columnNames rs ▸ hthere)
  refine ⟨fun t n => (Relabelling.columnNames rs t).apply n, source', target', fun r hr => ?_,
    fun t n hn => ?_, hthere, fun qs hp => renameColumns_perm hp hold ▸ hrun⟩
  · refine NameMap.apply_of_mem (hx _).old_nodup (List.mem_map.2 ⟨r, ?_, rfl⟩)
    exact List.mem_filter.2 ⟨hr, beq_self_eq_true _⟩
  · exact NameMap.apply_of_not_mem fun hmem => hn (Relabelling.mem_old_columnNames.1 hmem)

/-- Edges of a graph, each leading to the next one. -/
def edges : Catalog where
  tables := ⟨[⟨"edge"⟩], by decide⟩
  columns := ⟨[{ table := "edge", name := "tail", type := "int" },
    { table := "edge", name := "head", type := "int" }], by decide⟩
  foreignKeys := ⟨[.implicit "edge" ["head"] "edge" ["tail"]], by decide⟩
  indexes := ⟨[⟨"edge", "length", true, [.column "head", .expression "head - tail"], false, none,
    none, none⟩], by decide⟩

/-- Every edge is turned round. -/
def turns : List (Renaming Column) :=
  [⟨{ table := "edge", name := "tail", type := "int" },
    { table := "edge", name := "head", type := "int" }⟩,
  ⟨{ table := "edge", name := "head", type := "int" },
    { table := "edge", name := "tail", type := "int" }⟩]

theorem columns_exchanged_of_turns :
    (turns.map fun r => (r.old.table, r.old.name)).Nodup ∧
      (turns.map fun r => (r.old.table, r.new.name)).Nodup ∧
      (∀ r ∈ turns,
        (r.old.table, r.new.name) ∈ turns.map (fun q => (q.old.table, q.old.name)) ∨
          edges.columns.hasKey (.scoped r.old.table r.new.name) = false) ∧
      ∃ source' target', source'.foreignKeys.rows =
          [⟨"edge", "edge_head_edge_tail_fk", false, ["tail"], "edge", ["head"], .noAction,
            .noAction⟩] ∧
        source'.indexes.rows = [⟨"edge", "length", true,
          [.column "tail", .expression "head - tail"], false, none, none, none⟩] ∧
        ∀ qs, turns.Perm qs →
          Returns (renameColumns qs) ⟨edges, edges⟩ () ⟨source', target'⟩ := by
  obtain ⟨image, source', target', himage, -, hrel, hrun⟩ :=
    @columns_exchanged turns edges edges (by decide) (by decide) (by decide)
  have htail : image "edge" "tail" = "head" := himage _ (List.mem_cons_self ..)
  have hhead : image "edge" "head" = "tail" :=
    himage _ (List.mem_cons_of_mem _ (List.mem_cons_self ..))
  refine ⟨by decide, by decide, by decide, source', target', ?_, ?_, hrun⟩
  · rw [hrel.foreignKeys]
    simp [edges, relabel, ForeignKey.implicit, ForeignKey.defaultName, htail, hhead]
  · rw [hrel.indexes]
    simp [edges, relabel, IndexPart.mapColumn, hhead]

end Propagate

end

end SchemaEvolution
