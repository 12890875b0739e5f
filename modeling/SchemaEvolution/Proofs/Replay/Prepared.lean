import SchemaEvolution.Proofs.Replay.Moved
import SchemaEvolution.Proofs.Replay.Phases
import SchemaEvolution.Proofs.Replay.Renames
import SchemaEvolution.Proofs.Replay.Tables

/-!
# The catalog when all names are final

The first phases of a migration create tables, drop foreign keys and tables, and carry out the
renames. Afterwards every row has its final name.

**Theorem (`Settlement.exists_prepared`).** Replaying these phases succeeds. What is left of the
source is what belongs to no dropped table and is no foreign key that is dropped by itself, and what
is there of the target is what is declared with a created table.
-/

namespace SchemaEvolution

namespace PlanInput

variable {p : PlanInput} {t : String} {e : Entity}

/-! ## Created tables -/

/-- Whether a row of a created table is declared with it. -/
def declares (p : PlanInput) : Entity → Bool
  | .foreignKey _ => !p.defersForeignKeys
  | .index i => i.isUnique
  | _ => true

theorem mem_definition (ht : p.target.hasTable t = true) :
    e ∈ (p.definition t).entities ↔
      e ∈ p.target.entities ∧ e.owner? = some t ∧ p.declares e = true := by
  cases e with
  | table row =>
    obtain ⟨y, hy, hyt⟩ := Collection.hasKey_iff_exists.1 ht
    obtain rfl : y.name = t := Key.single.inj hyt
    simp only [TableDefinition.entities, definition, Catalog.table_mem_entities, Entity.owner?,
      declares]
    simp
    constructor
    · rintro rfl
      exact ⟨hy, rfl⟩
    · intro h
      obtain ⟨-, hn⟩ := h
      rw [← hn]
  | column row =>
    simp [TableDefinition.entities, definition, Entity.owner?, declares, Catalog.columnsOf]
  | primaryKey row =>
    simp [TableDefinition.entities, definition, Entity.owner?, declares, Catalog.primaryKeyOf?,
      Collection.get?_eq_some_iff, Row.key]
  | foreignKey row =>
    by_cases hd : p.defersForeignKeys = true <;>
      simp [TableDefinition.entities, definition, Entity.owner?, declares, hd]
  | index row =>
    simp [TableDefinition.entities, definition, Entity.owner?, declares]
  | check row =>
    simp [TableDefinition.entities, definition, Entity.owner?, declares]
  | view row => simp [TableDefinition.entities, Entity.owner?]
  | viewColumn row => simp [TableDefinition.entities, Entity.owner?]

theorem coherent_definition (ht : p.target.hasTable t = true) : (p.definition t).Coherent where
  owner _ he := ((mem_definition ht).1 he).2.1
  columns := p.target.columns.keys_nodup.sublist (List.filter_sublist.map _)
  foreignKeys := by
    show (List.map Row.key (if p.defersForeignKeys then [] else _)).Nodup
    split
    · exact List.nodup_nil
    · exact p.target.foreignKeys.keys_nodup.sublist (List.filter_sublist.map _)
  uniques := p.target.indexes.keys_nodup.sublist (List.filter_sublist.map _)
  checks := p.target.checks.keys_nodup.sublist (List.filter_sublist.map _)

/-- A row goes with a dropped table. -/
def Takes (p : PlanInput) (e : Entity) : Prop :=
  ∃ t, e.owner? = some t ∧ p.drops t = true

/-- A row is a foreign key that is dropped by itself. -/
def ReleasesRow (p : PlanInput) (e : Entity) : Prop :=
  ∃ k, e = .foreignKey k ∧ p.Releases k

theorem releasesRow_foreignKey {k : ForeignKey} : p.ReleasesRow (.foreignKey k) ↔ p.Releases k := by
  simp [ReleasesRow]

theorem not_releasesRow (h : e.kind ≠ .foreignKeys) : ¬p.ReleasesRow e := by
  intro hr
  obtain ⟨k, rfl, -⟩ := hr
  exact h rfl

/-- A row comes with a created table. -/
def Brings (p : PlanInput) (e : Entity) : Prop :=
  (∃ t, e.owner? = some t ∧ p.creates t = true) ∧ p.declares e = true

end PlanInput

namespace Settlement

variable {source target middle c : Catalog} {x : Settled} {mode : Mode} {t : String} {e : Entity}

/-! ## Tables -/

theorem not_source_of_creates (h : Settlement source target x middle)
    (hc : (x.plan mode).creates t = true) : source.hasTable t = false := by
  obtain ⟨ht, hs⟩ := creates_iff.1 hc
  by_contra hno
  rw [Bool.not_eq_false] at hno
  have hyes := h.renamed.hasTable hno
  rw [show x.renames.relabelling.table t = t from h.moved_table ht, hs] at hyes
  cases hyes

theorem not_brings_of_source (h : Settlement source target x middle) (hs : source.Owned)
    (he : e ∈ source.entities) : ¬∃ t, e.owner? = some t ∧ (x.plan mode).creates t = true := by
  intro h'
  obtain ⟨t, ho, hc⟩ := h'
  cases (hs.hasTable he ho).symm.trans (h.not_source_of_creates hc)

/-- **First, tables are created.** -/
theorem replay_createTables (h : Settlement source target x middle) (mode : Mode)
    (hs : source.Owned) :
    ∃ d, source.replay? ((x.plan mode).phase .createTables) = some d ∧
      ∀ e, e ∈ d.entities ↔
        e ∈ source.entities ∨ e ∈ x.sides.target.entities ∧ (x.plan mode).Brings e := by
  obtain ⟨ds, hds, hn, hmem⟩ := PlanInput.exists_phase_eq Phase.holds_createTables (x.plan mode)
  simp only [PlanInput.mem_createTable] at hmem
  have hname : ∀ d ∈ ds, (x.plan mode).creates d.name = true ∧
      (x.plan mode).definition d.name = d := by
    intro d hd
    obtain ⟨y, hy, rfl⟩ := (hmem d).1 hd
    exact ⟨PlanInput.creates_iff.2 ⟨y, hy, rfl⟩, rfl⟩
  have htarget : ∀ d ∈ ds, x.sides.target.hasTable d.name = true := fun d hd =>
    (creates_iff.1 (hname d hd).1).1
  have hnames : (ds.map (·.name)).Nodup := by
    refine List.Nodup.map_on (fun d hd d' hd' e => ?_) hn
    rw [← (hname d hd).2, e, (hname d' hd').2]
  obtain ⟨c, hc, hcm⟩ := Catalog.replay?_createTables hnames
    (fun d hd => (hname d hd).2 ▸ PlanInput.coherent_definition (htarget d hd))
    (c := source) (fun d hd e he ho =>
      h.not_brings_of_source hs he ⟨d.name, ho, (hname d hd).1⟩)
  refine ⟨c, hds ▸ hc, fun e => ?_⟩
  rw [hcm]
  refine or_congr_right ⟨?_, ?_⟩
  · intro h'
    obtain ⟨d, hd, he⟩ := h'
    rw [← (hname d hd).2] at he
    obtain ⟨het, ho, hdecl⟩ := (PlanInput.mem_definition (htarget d hd)).1 he
    exact ⟨het, ⟨d.name, ho, (hname d hd).1⟩, hdecl⟩
  · intro h'
    obtain ⟨het, ⟨t, ho, hct⟩, hdecl⟩ := h'
    obtain ⟨y, hy, rfl⟩ := PlanInput.creates_iff.1 hct
    exact ⟨_, (hmem _).2 ⟨y, hy, rfl⟩,
      (PlanInput.mem_definition (creates_iff.1 hct).1).2 ⟨het, ho, hdecl⟩⟩

/-- A foreign key of the source stays for now if it is not released. -/
theorem not_dropped_iff_of_source (h : Settlement source target x middle) (hs : source.Owned)
    {k : ForeignKey} (hk : k ∈ source.foreignKeys.rows) :
    (∀ t n, .dropConstraint t n .foreignKey ∈ (x.plan mode).statements →
        Row.key k ≠ .scoped t n) ↔
      ¬(x.plan mode).ReleasesRow ((Entity.foreignKey k).relabel x.renames.relabelling) := by
  have hrel : (x.plan mode).ReleasesRow ((Entity.foreignKey k).relabel x.renames.relabelling) ↔
      (x.plan mode).Releases (relabel x.renames.relabelling k) := PlanInput.releasesRow_foreignKey
  rw [hrel, ← h.mem_dropForeignKey hs hk]
  constructor
  · intro hno hd
    exact hno _ _ hd rfl
  · intro hno t n hd e
    obtain ⟨rfl, rfl⟩ := Key.scoped.inj e
    exact hno hd

theorem not_dropped_of_brings (h : Settlement source target x middle) (hs : source.Owned)
    {k : ForeignKey} (hk : (x.plan mode).Brings (.foreignKey k)) {t n : String}
    (hd : .dropConstraint t n .foreignKey ∈ (x.plan mode).statements) :
    Row.key k ≠ .scoped t n := by
  intro e
  obtain ⟨l, hl, -, ht, -⟩ := (h.mem_dropForeignKey_iff hs).1 hd
  obtain ⟨u, hu, hc⟩ := hk.1
  have hul : l.table = u := (ht.trans (Key.scoped.inj e).1.symm).trans (Option.some.inj hu)
  exact h.not_brings_of_source hs (Catalog.foreignKey_mem_entities.2 hl) ⟨u, congrArg some hul, hc⟩

/-- **Next, foreign keys are dropped.** -/
theorem replay_dropForeignKeys (h : Settlement source target x middle) (hs : source.Owned)
    (hc : ∀ e, e ∈ c.entities ↔
      e ∈ source.entities ∨ e ∈ x.sides.target.entities ∧ (x.plan mode).Brings e) :
    ∃ d, c.replay? ((x.plan mode).phase .dropForeignKeys) = some d ∧
      ∀ e, e ∈ d.entities ↔
        e ∈ source.entities ∧ ¬(x.plan mode).ReleasesRow (e.relabel x.renames.relabelling) ∨
          e ∈ x.sides.target.entities ∧ (x.plan mode).Brings e := by
  obtain ⟨bs, hbs, hn, hmem⟩ :=
    PlanInput.exists_phase_eq Phase.holds_dropForeignKeys (x.plan mode)
  have hkeys : (bs.map fun b => Key.scoped b.1 b.2).Nodup :=
    hn.map fun b b' e => Prod.ext (Key.scoped.inj e).1 (Key.scoped.inj e).2
  have hthere : ∀ b ∈ bs, c.foreignKeys.hasKey (.scoped b.1 b.2) = true := by
    intro b hb
    obtain ⟨k, hk, -, ht, hkn⟩ := (h.mem_dropForeignKey_iff hs).1 ((hmem b).1 hb)
    refine Collection.hasKey_iff_exists.2 ⟨k, ?_, congrArg₂ Key.scoped ht hkn⟩
    exact Catalog.foreignKey_mem_entities.1 ((hc _).2 (.inl (by simpa using hk)))
  obtain ⟨rows, hr, hrm⟩ := Catalog.replay?_removals Part.dropForeignKeys hkeys hthere
  refine ⟨_, hbs ▸ hr, fun e => ?_⟩
  by_cases hk : ∃ k, e = .foreignKey k
  · obtain ⟨k, rfl⟩ := hk
    have hleft : (∀ b ∈ bs, Row.key k ≠ .scoped b.1 b.2) ↔
        ∀ t n, .dropConstraint t n .foreignKey ∈ (x.plan mode).statements →
          Row.key k ≠ .scoped t n := by
      simp only [hmem, Prod.forall]
    have hrow : .foreignKey k ∈ (Part.foreignKeys.set rows c).entities ↔
        .foreignKey k ∈ c.entities ∧ ∀ b ∈ bs, Row.key k ≠ .scoped b.1 b.2 := by
      rw [Catalog.foreignKey_mem_entities, Catalog.foreignKey_mem_entities]
      exact hrm k
    rw [hrow, hleft, hc, or_and_right]
    refine or_congr (and_congr_right fun hks => ?_) (and_iff_left_of_imp fun hkt => ?_)
    · exact h.not_dropped_iff_of_source hs (Catalog.foreignKey_mem_entities.1 hks)
    · exact fun t n hd => h.not_dropped_of_brings hs hkt.2 hd
  · have hother : e ∈ (Part.foreignKeys.set rows c).entities ↔ e ∈ c.entities := by
      cases e with
      | foreignKey k => exact absurd ⟨k, rfl⟩ hk
      | _ => simp [Part.foreignKeys]
    rw [hother, hc]
    refine or_congr_left (and_iff_left (PlanInput.not_releasesRow ?_)).symm
    rw [Entity.kind_relabel]
    intro hkind
    cases e with
    | foreignKey k => exact hk ⟨k, rfl⟩
    | _ => cases hkind

/-- What is left of the source when foreign keys and tables have been dropped, and what has been
created. -/
def Standing (source : Catalog) (x : Settled) (mode : Mode) (c : Catalog) : Prop :=
  ∀ e, e ∈ c.entities ↔
    e ∈ source.entities ∧ ¬(x.plan mode).ReleasesRow (e.relabel x.renames.relabelling) ∧
        ¬(x.plan mode).Takes (e.relabel x.renames.relabelling) ∨
      e ∈ x.sides.target.entities ∧ (x.plan mode).Brings e

/-- Renames do not change whether a row goes with a dropped table. -/
theorem takes_relabel (h : Settlement source target x middle) (hs : source.Owned)
    (he : e ∈ source.entities) :
    (x.plan mode).Takes (e.relabel x.renames.relabelling) ↔ (x.plan mode).Takes e := by
  unfold PlanInput.Takes
  rw [Entity.owner?_relabel]
  constructor
  · intro h'
    obtain ⟨t, ho, hd⟩ := h'
    obtain ⟨u, hu, rfl⟩ := Option.map_eq_some_iff.1 ho
    exact ⟨u, hu, (h.drops_relabelled (hs.hasTable he hu)).symm.trans hd⟩
  · intro h'
    obtain ⟨t, ho, hd⟩ := h'
    refine ⟨_, Option.map_eq_some_iff.2 ⟨t, ho, rfl⟩, ?_⟩
    exact (h.drops_relabelled (hs.hasTable he ho)).trans hd

/-- **Then tables are dropped.** -/
theorem replay_dropTables (h : Settlement source target x middle) (hs : source.Owned)
    (hc : ∀ e, e ∈ c.entities ↔
      e ∈ source.entities ∧ ¬(x.plan mode).ReleasesRow (e.relabel x.renames.relabelling) ∨
        e ∈ x.sides.target.entities ∧ (x.plan mode).Brings e) :
    ∃ d, c.replay? ((x.plan mode).phase .dropTables) = some d ∧ Standing source x mode d := by
  obtain ⟨ts, hts, hn, hmem⟩ := PlanInput.exists_phase_eq Phase.holds_dropTables (x.plan mode)
  simp only [PlanInput.mem_dropTable] at hmem
  have hthere : ∀ t ∈ ts, c.tables.hasKey (.single t) = true := by
    intro t ht
    obtain ⟨y, hy, e⟩ :=
      Collection.hasKey_iff_exists.1 (h.relabelled_of_drops ((hmem t).1 ht)).1
    refine Collection.hasKey_iff_exists.2 ⟨y, ?_, e⟩
    refine Catalog.table_mem_entities.1 ((hc _).2 (.inl ⟨by simpa using hy, ?_⟩))
    exact PlanInput.not_releasesRow nofun
  obtain ⟨d, hd, hdm⟩ := Catalog.replay?_dropTables hn hthere
  refine ⟨d, hts ▸ hd, fun e => ?_⟩
  have htakes : (∀ t ∈ ts, e.owner? ≠ some t) ↔ ¬(x.plan mode).Takes e := by
    constructor
    · intro hno h'
      obtain ⟨t, ho, hdt⟩ := h'
      exact hno t ((hmem t).2 hdt) ho
    · intro hno t ht ho
      exact hno ⟨t, ho, (hmem t).1 ht⟩
  have hbrings : (x.plan mode).Brings e → ¬(x.plan mode).Takes e := by
    intro hb hd
    obtain ⟨⟨t, ho, hct⟩, -⟩ := hb
    obtain ⟨t', ho', hdt⟩ := hd
    obtain rfl := Option.some.inj (ho.symm.trans ho')
    cases (creates_iff.1 hct).2.symm.trans (drops_iff.1 hdt).1
  rw [hdm, hc, htakes]
  constructor
  · intro h'
    rcases h' with ⟨⟨hes, hr⟩ | het, hno⟩
    · exact .inl ⟨hes, hr, mt (h.takes_relabel hs hes).1 hno⟩
    · exact .inr het
  · intro h'
    rcases h' with ⟨hes, hr, hno⟩ | het
    · exact ⟨.inl ⟨hes, hr⟩, mt (h.takes_relabel hs hes).2 hno⟩
    · exact ⟨.inr het, hbrings het.2⟩

/-! ## Renames -/

/-- What is left of the source and what is created do not come to share a key. -/
theorem key_ne_of_brings (h : Settlement source target x middle) (hs : source.Owned)
    (ht : x.sides.target.Closed) {e' : Entity} (he : e ∈ source.entities)
    (he' : e' ∈ x.sides.target.entities) (hb : (x.plan mode).Brings e') (hkind : e.kind = e'.kind) :
    (e.relabel x.renames.moved).key ≠ (e'.relabel x.renames.moved).key := by
  intro hkey
  rw [h.moved_target ht he'] at hkey
  obtain ⟨t, ho, hct⟩ := hb.1
  have howner := Entity.owner?_eq_of_key_eq ((Entity.kind_relabel).trans hkind) hkey
  rw [Entity.owner?_relabel, ho, Option.map_eq_some_iff] at howner
  obtain ⟨u, hu, rfl⟩ := howner
  cases (creates_iff.1 hct).2.symm.trans (h.renamed.hasTable (hs.hasTable he hu))

theorem exists_moved (h : Settlement source target x middle) (hs : source.Owned)
    (ht : x.sides.target.Closed) (hc : Standing source x mode c) :
    ∃ d, Catalog.IsRelabelled x.renames.moved c d := by
  refine Catalog.exists_isRelabelled fun e he e' he' hkind hkey => ?_
  rcases (hc e).1 he with ⟨hes, -⟩ | ⟨het, heb⟩ <;>
    rcases (hc e').1 he' with ⟨hes', -⟩ | ⟨het', heb'⟩
  · refine h.renamed.eq_of_key_eq hes hes' hkind ?_
    rw [Renames.relabelling_eq, ← Entity.relabel_relabel, ← Entity.relabel_relabel]
    exact Entity.key_relabel_congr (by rw [Entity.kind_relabel, Entity.kind_relabel, hkind]) hkey
  · exact absurd hkey (h.key_ne_of_brings hs ht hes het' heb' hkind)
  · exact absurd hkey.symm (h.key_ne_of_brings hs ht hes' het heb hkind.symm)
  · rw [h.moved_target ht het, h.moved_target ht het'] at hkey
    exact Catalog.eq_of_key_eq het het' hkind hkey

theorem matching_tables (h : Settlement source target x middle) (hs : source.Owned)
    (hc : Standing source x mode c) :
    Matching c.tables x.sides.target.tables x.renames.tables where
  old_nodup := h.tables.old_nodup
  new_nodup := h.tables.new_nodup
  old_in_source r hr := by
    obtain ⟨y, hy, e⟩ := Collection.hasKey_iff_exists.1 (h.tables.old_in_source r hr)
    refine Collection.hasKey_iff_exists.2 ⟨y, Catalog.table_mem_entities.1 ((hc _).2 (.inl ?_)), e⟩
    refine ⟨by simpa using hy, ?_, ?_⟩
    · exact PlanInput.not_releasesRow nofun
    · rw [h.takes_relabel hs (by simpa using hy)]
      intro h'
      obtain ⟨t, ho, hd⟩ := h'
      have hyt : r.old.name = t := (Key.single.inj e).symm.trans (Option.some.inj ho)
      rw [← hyt] at hd
      cases (h.old_table_gone hr).symm.trans (drops_iff.1 hd).1
  old_not_in_target r hr := h.kept.tables ▸ h.tables.old_not_in_target r hr
  new_in_target r hr := h.kept.tables ▸ h.tables.new_in_target r hr
  new_not_in_source r hr := by
    rw [Collection.hasKey_eq_false_iff]
    intro y hy e
    rcases (hc (.table y)).1 (by simpa using hy) with ⟨hys, -⟩ | ⟨-, ⟨t, ho, hct⟩, -⟩
    · have hno := Collection.hasKey_eq_false_iff.1 (h.tables.new_not_in_source r hr)
      exact hno y (by simpa using hys) e
    · have hyt : r.new.name = t := (Key.single.inj e).symm.trans (Option.some.inj ho)
      rw [← hyt] at hct
      cases (creates_iff.1 hct).2.symm.trans (h.new_table_there hr)

theorem matching_columns (h : Settlement source target x middle) (hs : source.Owned)
    (ht : x.sides.target.Owned) (hc : Standing source x mode c) {d : Catalog}
    (hd : c.IsRelabelled (.ofTableRenames x.renames.tables) d) :
    Matching d.columns x.sides.target.columns x.renames.columns where
  old_nodup := h.columns.old_nodup
  new_nodup := h.columns.new_nodup
  old_in_source r hr := by
    obtain ⟨z, hz, e⟩ := Collection.hasKey_iff_exists.1 (h.columns.old_in_source r hr)
    rw [h.renamed_tables.columns] at hz
    obtain ⟨y, hy, rfl⟩ := List.mem_map.1 hz
    refine Collection.hasKey_iff_exists.2 ⟨_, hd.columns ▸ List.mem_map_of_mem ?_, e⟩
    refine Catalog.column_mem_entities.1 ((hc _).2 (.inl ⟨by simpa using hy, ?_, ?_⟩))
    · exact PlanInput.not_releasesRow nofun
    · rw [h.takes_relabel hs (by simpa using hy)]
      intro h'
      obtain ⟨t, ho, hdt⟩ := h'
      -- The table of the column is on both sides, so it is not dropped.
      obtain rfl := Option.some.inj ho
      have hsame : x.renames.relabelling.table y.table = y.table := (h.relabelled_of_drops hdt).2
      have hnew : x.sides.target.hasTable r.new.table = true := by
        obtain ⟨w, hw, ew⟩ := Collection.hasKey_iff_exists.1 (h.columns.new_in_target r hr)
        rw [← (Key.scoped.inj ew).1]
        exact ht.columns w (h.kept.columns ▸ hw)
      rw [h.columns_table r hr, ← (Key.scoped.inj e).1] at hnew
      have hno := (drops_iff.1 hdt).2
      rw [← hsame] at hno
      cases hno.symm.trans hnew
  old_not_in_target r hr := h.kept.columns ▸ h.columns.old_not_in_target r hr
  new_in_target r hr := h.kept.columns ▸ h.columns.new_in_target r hr
  new_not_in_source r hr := by
    rw [Collection.hasKey_eq_false_iff, hd.columns]
    intro z hz e
    obtain ⟨y, hy, rfl⟩ := List.mem_map.1 hz
    rcases (hc (.column y)).1 (by simpa using hy) with ⟨hys, -⟩ | ⟨-, ⟨t, ho, hct⟩, -⟩
    · refine Collection.hasKey_eq_false_iff.1 (h.columns.new_not_in_source r hr) _ ?_ e
      rw [h.renamed_tables.columns]
      exact List.mem_map_of_mem (by simpa using hys)
    · -- The table of the column was there before, so it is not created.
      obtain rfl := Option.some.inj ho
      have hsame : x.renames.relabelling.table y.table = y.table :=
        h.moved_table (creates_iff.1 hct).1
      obtain ⟨w, hw, ew⟩ := Collection.hasKey_iff_exists.1 (h.columns.old_in_source r hr)
      have hthere := h.renamed_rest.hasTable ((h.renamed_tables.owned hs).columns w hw)
      have hwy : w.table = y.table := by
        rw [(Key.scoped.inj ew).1, ← h.columns_table r hr, ← (Key.scoped.inj e).1]
        exact hsame
      rw [hwy] at hthere
      cases (creates_iff.1 hct).2.symm.trans hthere

theorem phase_renameTables (h : Settlement source target x middle) (mode : Mode) :
    ∃ rs, x.renames.tables.Perm rs ∧ (x.plan mode).phase .renameTables =
      rs.map fun r => .renameTable r.old.name r.new.name := by
  refine PlanInput.exists_phase_perm Phase.holds_renameTables (x.plan mode)
    (f := fun r : Renaming Table => (r.old.name, r.new.name)) ?_ fun b => ?_
  · refine List.Nodup.of_map (fun b => Key.single b.1) ?_
    rw [List.map_map]
    exact h.tables.old_nodup
  · rw [PlanInput.mem_renameTable]
    refine exists_congr fun r => and_congr_right fun _ => ?_
    rw [Prod.ext_iff]

theorem phase_renameColumns (h : Settlement source target x middle) (mode : Mode) :
    ∃ rs, x.renames.columns.Perm rs ∧ (x.plan mode).phase .renameColumns =
      rs.map fun r => .renameColumn r.new.table r.old.name r.new.name := by
  refine PlanInput.exists_phase_perm Phase.holds_renameColumns (x.plan mode)
    (f := fun r : Renaming Column => (r.new.table, r.old.name, r.new.name)) ?_ fun b => ?_
  · refine List.Nodup.of_map (fun b => Key.scoped b.1 b.2.2) ?_
    rw [List.map_map]
    exact h.columns.new_nodup
  · rw [PlanInput.mem_renameColumn]
    refine exists_congr fun r => and_congr_right fun _ => ?_
    rw [Prod.ext_iff, Prod.ext_iff]

theorem phase_renameViews (h : Settlement source target x middle) (mode : Mode) :
    ∃ rs, x.renames.views.Perm rs ∧ (x.plan mode).phase .renameViews =
      rs.map fun r => .renameView r.old.name r.new.name := by
  refine PlanInput.exists_phase_perm Phase.holds_renameViews (x.plan mode)
    (f := fun r : Renaming View => (r.old.name, r.new.name)) ?_ fun b => ?_
  · refine List.Nodup.of_map (fun b => Key.single b.1) ?_
    rw [List.map_map]
    exact h.views.old_nodup
  · rw [PlanInput.mem_renameView]
    refine exists_congr fun r => and_congr_right fun _ => ?_
    rw [Prod.ext_iff]

/-- **Renames of tables and columns** relabel what is there. -/
theorem replay_moved (h : Settlement source target x middle) (hs : source.Owned)
    (ht : x.sides.target.Owned) (hc : Standing source x mode c) {d : Catalog}
    (hd : c.IsRelabelled x.renames.moved d) : ∃ b,
      c.replay? ((x.plan mode).phase .renameTables) = some b ∧
        b.replay? ((x.plan mode).phase .renameColumns) = some d := by
  obtain ⟨b, h₁, h₂⟩ := hd.split
  have hmt := h.matching_tables hs hc
  have hmc := h.matching_columns hs ht hc h₁
  obtain ⟨ts, hts, hpt⟩ := h.phase_renameTables mode
  obtain ⟨cs, hcs, hpc⟩ := h.phase_renameColumns mode
  rw [Relabelling.ofTableRenames_perm hmt hts] at h₁
  rw [Relabelling.ofColumnRenames_perm hmc hcs] at h₂
  refine ⟨b, ?_, ?_⟩
  · rw [hpt]
    exact Catalog.replay?_renameTables (hmt.perm hts) h₁
  · rw [hpc]
    exact Catalog.replay?_renameColumns (hmc.perm hcs)
      (fun r hr => h.columns_table r (hcs.mem_iff.2 hr)) h₂

/-- **What belongs to a table after the renames**: it is from the source after renames, or it has
come with a created table. -/
theorem mem_moved (h : Settlement source target x middle) (ht : x.sides.target.Closed)
    (hc : Standing source x mode c) {d : Catalog} (hd : c.IsRelabelled x.renames.moved d)
    (ho : e.owner? ≠ none) :
    e ∈ d.entities ↔ e ∈ x.sides.source.entities ∧ ¬(x.plan mode).ReleasesRow e ∧
        ¬(x.plan mode).Takes e ∨ e ∈ x.sides.target.entities ∧ (x.plan mode).Brings e := by
  have hsame : ∀ {e₀ : Entity} {ρ : Relabelling}, e₀.relabel ρ = e → e₀.owner? ≠ none := by
    rintro e₀ ρ rfl hno
    exact ho (by rw [Entity.owner?_relabel, hno]; rfl)
  rw [hd.mem_entities, h.renamed.mem_entities]
  constructor
  · intro h'
    obtain ⟨e₀, he, hr⟩ := h'
    rcases (hc e₀).1 he with ⟨hes, hrel, htak⟩ | ⟨het, hb⟩
    · rw [← Entity.relabel_relabelling (hsame hr)] at hr
      rw [hr] at hrel htak
      exact .inl ⟨⟨e₀, hes, hr⟩, hrel, htak⟩
    · rw [h.moved_target ht het] at hr
      exact .inr (hr ▸ ⟨het, hb⟩)
  · intro h'
    rcases h' with ⟨⟨e₀, hes, hr⟩, hrel, htak⟩ | ⟨het, hb⟩
    · refine ⟨e₀, (hc e₀).2 (.inl ⟨hes, ?_, ?_⟩), ?_⟩
      · rwa [hr]
      · rwa [hr]
      · rw [← Entity.relabel_relabelling (hsame hr), hr]
    · exact ⟨e, (hc e).2 (.inr ⟨het, hb⟩), h.moved_target ht het⟩

end Settlement

end SchemaEvolution
