import SchemaEvolution.Proofs.Replay.Columns

/-!
# The last phases

What each phase does to one collection is put together here. While the last phases are carried out,
every collection of the catalog is at some stage (`Stage`), and a phase moves one collection to its
next stage.

**Theorem (`Prepared.exists_reached`).** On a catalog in which all names are final, the last phases
succeed and reach the target (`Reached`), if no primary key of a table that is kept rides on its
column.
-/

namespace SchemaEvolution

/-! ## Stages -/

/-- What is known of each collection of a catalog. -/
structure Stage where
  tables : Collection Table → Prop
  columns : Collection Column → Prop
  primaryKeys : Collection PrimaryKey → Prop
  foreignKeys : Collection ForeignKey → Prop
  indexes : Collection Index → Prop
  checks : Collection Check → Prop
  views : Collection View → Prop
  viewColumns : Collection ViewColumn → Prop

/-- A catalog is at a stage. -/
structure Catalog.At (c : Catalog) (s : Stage) : Prop where
  tables : s.tables c.tables
  columns : s.columns c.columns
  primaryKeys : s.primaryKeys c.primaryKeys
  foreignKeys : s.foreignKeys c.foreignKeys
  indexes : s.indexes c.indexes
  checks : s.checks c.checks
  views : s.views c.views
  viewColumns : s.viewColumns c.viewColumns

namespace PlanInput.Advances

variable {p : PlanInput} {ph : Phase} {c : Catalog} {s : Stage}

theorem columns {P Q : Collection Column → Prop} (h : p.Advances ph .columns P Q) (hc : c.At s)
    (hP : ∀ rows, s.columns rows → P rows) :
    ∃ d, c.replay? (p.phase ph) = some d ∧ d.At { s with columns := Q } := by
  obtain ⟨rows, hr, hrows⟩ := h c (hP _ hc.columns)
  exact ⟨_, hr, { hc with columns := hrows }⟩

theorem primaryKeys {P Q : Collection PrimaryKey → Prop} (h : p.Advances ph .primaryKeys P Q)
    (hc : c.At s) (hP : ∀ rows, s.primaryKeys rows → P rows) :
    ∃ d, c.replay? (p.phase ph) = some d ∧ d.At { s with primaryKeys := Q } := by
  obtain ⟨rows, hr, hrows⟩ := h c (hP _ hc.primaryKeys)
  exact ⟨_, hr, { hc with primaryKeys := hrows }⟩

theorem foreignKeys {P Q : Collection ForeignKey → Prop} (h : p.Advances ph .foreignKeys P Q)
    (hc : c.At s) (hP : ∀ rows, s.foreignKeys rows → P rows) :
    ∃ d, c.replay? (p.phase ph) = some d ∧ d.At { s with foreignKeys := Q } := by
  obtain ⟨rows, hr, hrows⟩ := h c (hP _ hc.foreignKeys)
  exact ⟨_, hr, { hc with foreignKeys := hrows }⟩

theorem indexes {P Q : Collection Index → Prop} (h : p.Advances ph .indexes P Q) (hc : c.At s)
    (hP : ∀ rows, s.indexes rows → P rows) :
    ∃ d, c.replay? (p.phase ph) = some d ∧ d.At { s with indexes := Q } := by
  obtain ⟨rows, hr, hrows⟩ := h c (hP _ hc.indexes)
  exact ⟨_, hr, { hc with indexes := hrows }⟩

theorem checks {P Q : Collection Check → Prop} (h : p.Advances ph .checks P Q) (hc : c.At s)
    (hP : ∀ rows, s.checks rows → P rows) :
    ∃ d, c.replay? (p.phase ph) = some d ∧ d.At { s with checks := Q } := by
  obtain ⟨rows, hr, hrows⟩ := h c (hP _ hc.checks)
  exact ⟨_, hr, { hc with checks := hrows }⟩

theorem views {P Q : Collection View → Prop} (h : p.Advances ph .views P Q) (hc : c.At s)
    (hP : ∀ rows, s.views rows → P rows) :
    ∃ d, c.replay? (p.phase ph) = some d ∧ d.At { s with views := Q } := by
  obtain ⟨rows, hr, hrows⟩ := h c (hP _ hc.views)
  exact ⟨_, hr, { hc with views := hrows }⟩

end PlanInput.Advances

/-! ## The target -/

open Comparison
open Collection (Reaches)

/-- A migration between settled catalogs has come to a catalog that has the tables of the target,
and that has its columns, keys, indexes, checks and views, except for what the mode takes for
redundant. Columns of views are those of the source. -/
structure Reached (x : Settled) (mode : Mode) (c : Catalog) : Prop where
  tables : ∀ t, t ∈ c.tables.rows ↔ t ∈ x.sides.target.tables.rows
  columns : Reaches (redundantBetween mode x.sides.source x.sides.target) x.sides.source.columns
    x.sides.target.columns c.columns
  primaryKeys : Reaches (fun _ => redundantInPrimaryKey) x.sides.source.primaryKeys
    x.sides.target.primaryKeys c.primaryKeys
  foreignKeys : Reaches (fun _ => redundantInForeignKey mode) x.sides.source.foreignKeys
    x.sides.target.foreignKeys c.foreignKeys
  indexes : Reaches (fun _ => redundantInIndex mode) x.sides.source.indexes
    x.sides.target.indexes c.indexes
  checks : Reaches (fun _ => redundantInCheck mode) x.sides.source.checks x.sides.target.checks
    c.checks
  views : Reaches (fun _ => redundantInView mode) x.sides.source.views x.sides.target.views c.views
  viewColumns : ∀ w, w ∈ c.viewColumns.rows ↔ w ∈ x.sides.source.viewColumns.rows

namespace Prepared

variable {x : Settled} {mode : Mode} {c : Catalog}

theorem tables (h : Prepared x mode c) (t : Table) :
    t ∈ c.tables.rows ↔ t ∈ x.sides.target.tables.rows := by
  have ht : (Entity.table t).owner? = some t.name := rfl
  have hrow : ∀ rows : Collection Table, rows.hasKey (.single t.name) = true ↔ t ∈ rows.rows := by
    intro rows
    rw [Collection.hasKey_iff_exists]
    constructor
    · intro h'
      obtain ⟨y, hy, e⟩ := h'
      rwa [← show y = t from congrArg Table.mk (Key.single.inj e)]
    · intro hy
      exact ⟨t, hy, rfl⟩
  have hrel : ¬(x.plan mode).ReleasesRow (.table t) := PlanInput.not_releasesRow nofun
  rw [← Catalog.table_mem_entities, h.owned _ (by simp [ht]), PlanInput.takes_iff ht,
    PlanInput.brings_iff ht, Settlement.drops_iff, Settlement.creates_iff, Catalog.hasTable,
    Catalog.hasTable, Catalog.table_mem_entities, Catalog.table_mem_entities, ← hrow, ← hrow]
  constructor
  · intro h'
    rcases h' with ⟨hs, -, hno⟩ | ⟨hyes, -⟩
    · by_contra hgone
      exact hno ⟨hs, Bool.not_eq_true _ ▸ hgone⟩
    · exact hyes
  · intro hyes
    cases hs : x.sides.source.tables.hasKey (.single t.name) with
    | false => exact .inr ⟨hyes, ⟨hyes, rfl⟩, rfl⟩
    | true =>
      refine .inl ⟨rfl, hrel, ?_⟩
      intro h'
      obtain ⟨-, hno⟩ := h'
      cases hno.symm.trans hyes

theorem at_stage (h : Prepared x mode c) (hs : x.sides.source.Owned) (ht : x.sides.target.Owned) :
    c.At {
      tables := fun rows => ∀ t, t ∈ rows.rows ↔ t ∈ x.sides.target.tables.rows
      columns := x.ColumnsUpTo mode fun _ => False
      primaryKeys := (x.primaryKeys mode hs ht).Start
      foreignKeys := (x.foreignKeys mode hs ht).Reduced
      indexes := (x.indexes mode hs ht).Start
      checks := (x.checks mode hs ht).Start
      views := x.ViewsUpTo fun _ => False
      viewColumns := fun rows => ∀ w, w ∈ rows.rows ↔ w ∈ x.sides.source.viewColumns.rows } where
  tables := h.tables
  columns := h.columns
  primaryKeys := h.primaryKeys hs ht
  foreignKeys := h.foreignKeys hs ht
  indexes := h.indexes hs ht
  checks := h.checks hs ht
  views := h.viewsUpTo
  viewColumns := h.viewColumns

/-- The phases when all names are final. -/
def finishing : List Phase :=
  [.alterViews, .dropChecks, .dropIndexes, .dropPrimaryKeys, .alterColumns, .recreateColumns,
    .addColumns, .createPrimaryKeys, .createIndexes, .createForeignKeys, .createChecks,
    .dropColumns, .createViews]

/-- **The last phases succeed and reach the target.** -/
theorem exists_reached (h : Prepared x mode c) (hs : x.sides.source.Owned)
    (ht : x.sides.target.Owned) (hk : x.KeysStand) :
    ∃ d, c.replay? (finishing.flatMap (x.plan mode).phase) = some d ∧ Reached x mode d := by
  obtain ⟨c₁, h₁, s₁⟩ := Settled.advances_alterViews.views (h.at_stage hs ht) fun _ hc => hc
  obtain ⟨c₂, h₂, s₂⟩ := Settled.advances_dropChecks.checks s₁ fun _ hc => hc
  obtain ⟨c₃, h₃, s₃⟩ := Settled.advances_dropIndexes.indexes s₂ fun _ hc => hc
  obtain ⟨c₄, h₄, s₄⟩ := (Settled.advances_dropPrimaryKeys hk).primaryKeys s₃ fun _ hc => hc
  obtain ⟨c₅, h₅, s₅⟩ := (Settled.advances_alterColumns hk hs ht).columns s₄ fun _ hc => hc
  obtain ⟨c₆, h₆, s₆⟩ := (Settled.advances_recreateColumns ht).columns s₅ fun _ hc => hc
  obtain ⟨c₇, h₇, s₇⟩ := Settled.advances_addColumns.columns s₆ fun _ hc => hc
  obtain ⟨c₈, h₈, s₈⟩ := (Settled.advances_createPrimaryKeys hk).primaryKeys s₇ fun _ hc => hc
  obtain ⟨c₉, h₉, s₉⟩ := Settled.advances_createIndexes.indexes s₈ fun _ hc => hc
  obtain ⟨c₁₀, h₁₀, s₁₀⟩ := Settled.advances_createForeignKeys.foreignKeys s₉ fun _ hc => hc
  obtain ⟨c₁₁, h₁₁, s₁₁⟩ := Settled.advances_createChecks.checks s₁₀ fun _ hc => hc
  obtain ⟨c₁₂, h₁₂, s₁₂⟩ := (Settled.advances_dropColumns ht).columns s₁₁ fun _ hc => hc
  obtain ⟨c₁₃, h₁₃, s₁₃⟩ := Settled.advances_createViews.views s₁₂ fun _ hc => hc
  refine ⟨c₁₃, ?_, ⟨s₁₃.tables, s₁₃.columns, s₁₃.primaryKeys, s₁₃.foreignKeys, s₁₃.indexes,
    s₁₃.checks, s₁₃.views, s₁₃.viewColumns⟩⟩
  simp only [finishing, List.flatMap_cons, List.flatMap_nil, List.append_nil]
  rw [Catalog.replay?_append h₁, Catalog.replay?_append h₂, Catalog.replay?_append h₃,
    Catalog.replay?_append h₄, Catalog.replay?_append h₅, Catalog.replay?_append h₆,
    Catalog.replay?_append h₇, Catalog.replay?_append h₈, Catalog.replay?_append h₉,
    Catalog.replay?_append h₁₀, Catalog.replay?_append h₁₁, Catalog.replay?_append h₁₂, h₁₃]

end Prepared

end SchemaEvolution
