import SchemaEvolution.Proofs.Entities
import SchemaEvolution.Proofs.Replay.Batch

/-!
# Replaying creations and drops of tables

A created table brings the rows that its definition declares, and a dropped table takes along the
rows that belong to it. What is there otherwise stays (`Catalog.replay?_createTables`,
`Catalog.replay?_dropTables`).
-/

namespace SchemaEvolution

theorem Collection.insertAllNew?_eq_some {α : Type} [Row α] :
    ∀ {rows : List α} {c : Collection α}, (rows.map Row.key).Nodup →
      (∀ r ∈ rows, c.hasKey (Row.key r) = false) →
      ∃ d, c.insertAllNew? rows = some d ∧ ∀ x, x ∈ d.rows ↔ x ∈ c.rows ∨ x ∈ rows
  | [], c, _, _ => ⟨c, rfl, by simp⟩
  | r :: rows, c, hn, hf => by
    obtain ⟨hrn, hn⟩ := List.nodup_cons.1 hn
    obtain ⟨d, hd, hdr⟩ := insertNew?_eq_some (hf r (List.mem_cons_self ..))
    have hrest : ∀ r' ∈ rows, d.hasKey (Row.key r') = false := by
      intro r' hr'
      rw [hasKey_eq_false_iff, hdr]
      intro x hx e
      rcases List.mem_append.1 hx with hx | hx
      · exact hasKey_eq_false_iff.1 (hf r' (List.mem_cons_of_mem _ hr')) x hx e
      · rw [List.mem_singleton.1 hx] at e
        exact hrn (List.mem_map.2 ⟨r', hr', e.symm⟩)
    obtain ⟨d', hd', hm⟩ := insertAllNew?_eq_some hn hrest
    refine ⟨d', ?_, fun x => ?_⟩
    · rw [insertAllNew?, List.foldlM_cons, hd]
      exact hd'
    · rw [hm, hdr, List.mem_append, List.mem_singleton, List.mem_cons, or_assoc]

namespace TableDefinition

/-- The rows that a definition declares. -/
def entities (d : TableDefinition) : List Entity :=
  .table ⟨d.name⟩ :: (d.columns.map .column ++ d.primaryKey.toList.map .primaryKey ++
    d.foreignKeys.map .foreignKey ++ d.uniques.map .index ++ d.checks.map .check)

/-- The declared rows belong to the table, and no two of one kind share a key. -/
structure Coherent (d : TableDefinition) : Prop where
  owner : ∀ e ∈ d.entities, e.owner? = some d.name
  columns : (d.columns.map Row.key).Nodup
  foreignKeys : (d.foreignKeys.map Row.key).Nodup
  uniques : (d.uniques.map Row.key).Nodup
  checks : (d.checks.map Row.key).Nodup

end TableDefinition

namespace Catalog

variable {c : Catalog} {d : TableDefinition} {t : String}

/-- No row belongs to a table of that name. -/
def Free (c : Catalog) (t : String) : Prop :=
  ∀ e ∈ c.entities, e.owner? ≠ some t

theorem Free.hasKey {α : Type} [Row α] (h : c.Free t) {rows : Collection α} (wrap : α → Entity)
    (hwrap : ∀ x ∈ rows.rows, wrap x ∈ c.entities) (hkind : ∀ x y, (wrap x).kind = (wrap y).kind)
    (hkey : ∀ x, (wrap x).key = Row.key x) {r : α} (hr : (wrap r).owner? = some t) :
    rows.hasKey (Row.key r) = false := by
  rw [Collection.hasKey_eq_false_iff]
  intro x hx e
  refine h (wrap x) (hwrap x hx) ?_
  rw [← hr]
  exact Entity.owner?_eq_of_key_eq (hkind x r) (by rw [hkey, hkey, e])

/-- **A created table brings the rows that are declared with it.** -/
theorem createTable?_eq_some (hd : d.Coherent) (hf : c.Free d.name) :
    ∃ c', c.perform? (.createTable d) = some c' ∧
      ∀ e, e ∈ c'.entities ↔ e ∈ c.entities ∨ e ∈ d.entities := by
  have hown := hd.owner
  have hkey : (d.primaryKey.toList.map Row.key).Nodup := by cases d.primaryKey <;> simp
  have hname : c.tables.hasKey (Row.key (⟨d.name⟩ : Table)) = false :=
    hf.hasKey .table (fun x hx => by simpa using hx) (fun _ _ => rfl) (fun _ => rfl) rfl
  obtain ⟨ts, ht, htm⟩ := Collection.insertNew?_eq_some hname
  obtain ⟨cs, hc, hcm⟩ := Collection.insertAllNew?_eq_some (c := c.columns) hd.columns fun r hr =>
    hf.hasKey .column (fun x hx => by simpa using hx) (fun _ _ => rfl) (fun _ => rfl)
      (hown _ (by simp [TableDefinition.entities, hr]))
  obtain ⟨ps, hp, hpm⟩ := Collection.insertAllNew?_eq_some (c := c.primaryKeys) hkey fun r hr =>
    hf.hasKey .primaryKey (fun x hx => by simpa using hx) (fun _ _ => rfl) (fun _ => rfl)
      (hown _ (by
        rw [Option.mem_toList] at hr
        simp [TableDefinition.entities, hr]))
  obtain ⟨fs, hk, hkm⟩ := Collection.insertAllNew?_eq_some (c := c.foreignKeys) hd.foreignKeys
    fun r hr => hf.hasKey .foreignKey (fun x hx => by simpa using hx) (fun _ _ => rfl)
      (fun _ => rfl) (hown _ (by simp [TableDefinition.entities, hr]))
  obtain ⟨is, hi, him⟩ := Collection.insertAllNew?_eq_some (c := c.indexes) hd.uniques fun r hr =>
    hf.hasKey .index (fun x hx => by simpa using hx) (fun _ _ => rfl) (fun _ => rfl)
      (hown _ (by simp [TableDefinition.entities, hr]))
  obtain ⟨ks, hq, hqm⟩ := Collection.insertAllNew?_eq_some (c := c.checks) hd.checks fun r hr =>
    hf.hasKey .check (fun x hx => by simpa using hx) (fun _ _ => rfl) (fun _ => rfl)
      (hown _ (by simp [TableDefinition.entities, hr]))
  refine ⟨_, by simp only [perform?, createTable?, ht, hc, hp, hk, hi, hq]; rfl, fun e => ?_⟩
  cases e <;> simp [TableDefinition.entities, htm, hcm, hpm, hkm, him, hqm]

/-- **A dropped table takes along the rows that belong to it.** -/
theorem dropTable?_eq_some (h : c.tables.hasKey (.single t) = true) :
    ∃ c', c.perform? (.dropTable t) = some c' ∧
      ∀ e, e ∈ c'.entities ↔ e ∈ c.entities ∧ e.owner? ≠ some t := by
  obtain ⟨ts, ht, htm⟩ := Collection.remove?_eq_some h
  refine ⟨_, by simp only [perform?, dropTable?, ht]; rfl, fun e => ?_⟩
  cases e <;> simp [Entity.owner?, Collection.mem_without, htm, Row.key]

/-! ## One after the other -/

/-- **Created tables bring the rows that are declared with them.** -/
theorem replay?_createTables : ∀ {ds : List TableDefinition} {c : Catalog},
    (ds.map (·.name)).Nodup → (∀ d ∈ ds, d.Coherent) → (∀ d ∈ ds, c.Free d.name) →
    ∃ c', c.replay? (ds.map .createTable) = some c' ∧
      ∀ e, e ∈ c'.entities ↔ e ∈ c.entities ∨ ∃ d ∈ ds, e ∈ d.entities
  | [], c, _, _, _ => ⟨c, rfl, by simp⟩
  | d :: ds, c, hn, hd, hf => by
    obtain ⟨hdn, hn⟩ := List.nodup_cons.1 hn
    obtain ⟨c₁, h₁, hm₁⟩ :=
      createTable?_eq_some (hd d (List.mem_cons_self ..)) (hf d (List.mem_cons_self ..))
    have hrest : ∀ d' ∈ ds, c₁.Free d'.name := by
      intro d' hd' e he ho
      rcases (hm₁ e).1 he with he | he
      · exact hf d' (List.mem_cons_of_mem _ hd') e he ho
      · rw [(hd d (List.mem_cons_self ..)).owner e he] at ho
        exact hdn (List.mem_map.2 ⟨d', hd', (Option.some.inj ho).symm⟩)
    obtain ⟨c₂, h₂, hm₂⟩ :=
      replay?_createTables hn (fun d' hd' => hd d' (List.mem_cons_of_mem _ hd')) hrest
    refine ⟨c₂, ?_, fun e => ?_⟩
    · rw [List.map_cons, replay?_cons h₁, h₂]
    · rw [hm₂, hm₁, or_assoc, List.exists_mem_cons_iff]

/-- **Dropped tables take along the rows that belong to them.** -/
theorem replay?_dropTables : ∀ {ts : List String} {c : Catalog}, ts.Nodup →
    (∀ t ∈ ts, c.tables.hasKey (.single t) = true) →
    ∃ c', c.replay? (ts.map .dropTable) = some c' ∧
      ∀ e, e ∈ c'.entities ↔ e ∈ c.entities ∧ ∀ t ∈ ts, e.owner? ≠ some t
  | [], c, _, _ => ⟨c, rfl, by simp⟩
  | t :: ts, c, hn, ht => by
    obtain ⟨htn, hn⟩ := List.nodup_cons.1 hn
    obtain ⟨c₁, h₁, hm₁⟩ := dropTable?_eq_some (ht t (List.mem_cons_self ..))
    have hrest : ∀ t' ∈ ts, c₁.tables.hasKey (.single t') = true := by
      intro t' ht'
      obtain ⟨x, hx, e⟩ := Collection.hasKey_iff_exists.1 (ht t' (List.mem_cons_of_mem _ ht'))
      refine Collection.hasKey_iff_exists.2 ⟨x, ?_, e⟩
      refine table_mem_entities.1 ((hm₁ (.table x)).2 ⟨by simpa using hx, fun ho => ?_⟩)
      have hxt : x.name = t := Option.some.inj ho
      have hxt' : x.name = t' := Key.single.inj e
      exact htn (hxt ▸ hxt' ▸ ht')
    obtain ⟨c₂, h₂, hm₂⟩ := replay?_dropTables hn hrest
    refine ⟨c₂, ?_, fun e => ?_⟩
    · rw [List.map_cons, replay?_cons h₁, h₂]
    · rw [hm₂, hm₁, List.forall_mem_cons, and_assoc]

end Catalog

end SchemaEvolution
