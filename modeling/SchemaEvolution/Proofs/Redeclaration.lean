import SchemaEvolution.Proofs.KeptNames
import SchemaEvolution.Proofs.Planning

/-!
# Schemas that are declared anew under new names

`Catalog.IsRedeclared` says that one schema is another one under new names: all references follow,
texts such as expressions and definitions stay as they are, and constraints without a name of their
own get the default name that they have now.

Renames that are carried out restore all of these names but those of primary keys, which the server
ignores (`PrimaryKey.effective?_redeclared`). So **between catalogs that differ in names of primary
keys only, all that is planned are the renames** (`Settled.scheduled_of_sameButKeyNames`).
-/

namespace SchemaEvolution

open Nameable

/-! ## Redeclared schemas -/

/-- The key as it is declared anew, with its default name if it has no name of its own. -/
def PrimaryKey.redeclared (k : PrimaryKey) : PrimaryKey :=
  if k.nameExplicit then k else { k with name := defaultName k.table k.columns }

/-- The rows of `d` are the relabelled rows of `c`, declared anew. Texts such as expressions and
definitions stay as they are. -/
structure Catalog.IsRedeclared (ρ : Relabelling) (c d : Catalog) : Prop where
  tables : d.tables.rows = c.tables.rows.map (relabel ρ)
  columns : d.columns.rows = c.columns.rows.map (relabel ρ)
  primaryKeys : d.primaryKeys.rows = c.primaryKeys.rows.map fun k => (relabel ρ k).redeclared
  foreignKeys : d.foreignKeys.rows = c.foreignKeys.rows.map fun k => redeclared (relabel ρ k)
  indexes : d.indexes.rows = c.indexes.rows.map fun i => redeclared (relabel ρ i)
  checks : d.checks.rows = c.checks.rows.map (relabel ρ)
  views : d.views.rows = c.views.rows.map (relabel ρ)
  viewColumns : d.viewColumns.rows = c.viewColumns.rows.map (relabel ρ)

instance (ρ : Relabelling) (c d : Catalog) : Decidable (c.IsRedeclared ρ d) :=
  decidable_of_iff
    (d.tables.rows = c.tables.rows.map (relabel ρ) ∧
      d.columns.rows = c.columns.rows.map (relabel ρ) ∧
      (d.primaryKeys.rows = c.primaryKeys.rows.map fun k => (relabel ρ k).redeclared) ∧
      (d.foreignKeys.rows = c.foreignKeys.rows.map fun k => redeclared (relabel ρ k)) ∧
      (d.indexes.rows = c.indexes.rows.map fun i => redeclared (relabel ρ i)) ∧
      d.checks.rows = c.checks.rows.map (relabel ρ) ∧
      d.views.rows = c.views.rows.map (relabel ρ) ∧
      d.viewColumns.rows = c.viewColumns.rows.map (relabel ρ))
    ⟨fun ⟨ht, hc, hp, hf, hi, hk, hv, hw⟩ => ⟨ht, hc, hp, hf, hi, hk, hv, hw⟩,
      fun ⟨ht, hc, hp, hf, hi, hk, hv, hw⟩ => ⟨ht, hc, hp, hf, hi, hk, hv, hw⟩⟩

theorem PrimaryKey.key_redeclared (k : PrimaryKey) : Row.key k.redeclared = Row.key k := by
  unfold redeclared
  split <;> rfl

/-! ## Differences between equals -/

namespace Collection

variable {α φ : Type} {ν : φ → Type} [Row α] [Attributed α φ ν] {c d : Collection α}

theorem created_eq_nil (h : ∀ x ∈ d.rows, c.hasKey (Row.key x) = true) :
    (c.difference d).created = [] :=
  List.filter_eq_nil_iff.2 fun x hx => by simp [h x hx]

theorem dropped_eq_nil (h : ∀ x ∈ c.rows, d.hasKey (Row.key x) = true) :
    (c.difference d).dropped = [] :=
  List.filter_eq_nil_iff.2 fun x hx => by simp [h x hx]

theorem difference_of_perm (h : c.rows.Perm d.rows) : c.difference d = ⟨[], [], []⟩ := by
  have ha : (c.difference d).altered = [] := by
    refine List.eq_nil_iff_forall_not_mem.2 fun a ha => ?_
    obtain ⟨l, hl, r, hr, e, hn⟩ := mem_altered_iff.1 ha
    obtain rfl := eq_of_key_eq hl (h.mem_iff.2 hr) e
    rw [Alteration.nonempty?_eq_none_iff.2 fun f => by simp [Alteration.between, Delta.between?]]
      at hn
    cases hn
  have hc : (c.difference d).created = [] :=
    created_eq_nil fun x hx => hasKey_key (h.mem_iff.2 hx)
  have hd : (c.difference d).dropped = [] :=
    dropped_eq_nil fun x hx => hasKey_key (h.mem_iff.1 hx)
  cases hdiff : c.difference d
  simp only [hdiff] at ha hc hd
  rw [ha, hc, hd]

theorem difference_self (c : Collection α) : c.difference c = ⟨[], [], []⟩ :=
  difference_of_perm (.refl _)

end Collection

/-- The server ignores under which name a primary key is declared. -/
theorem PrimaryKey.effective?_redeclared (k : PrimaryKey) :
    Alteration.effective? (fun _ => Comparison.redundantInPrimaryKey) k k.redeclared = none := by
  refine Alteration.nonempty?_eq_none_iff.2 fun f => ?_
  show ((Alteration.between k k.redeclared).change f).filter _ = none
  cases f with
  | name | nameExplicit =>
    exact Option.filter_eq_none_iff.2 fun d _ => by simp [Comparison.redundantInPrimaryKey]
  | columns =>
    have hcols : k.redeclared.columns = k.columns := by
      unfold redeclared
      split <;> rfl
    have hnone : (Alteration.between k k.redeclared).change .columns = none := by
      show Delta.between? k.columns k.redeclared.columns = none
      rw [hcols, Delta.between?, if_pos rfl]
    rw [hnone]
    rfl

/-! ## Settled catalogs -/

/-- The catalogs differ in names of primary keys at most, which `d` declares anew. -/
structure Catalog.SameButKeyNames (c d : Catalog) : Prop where
  tables : d.tables = c.tables
  columns : d.columns = c.columns
  primaryKeys : d.primaryKeys.rows = c.primaryKeys.rows.map PrimaryKey.redeclared
  foreignKeys : d.foreignKeys = c.foreignKeys
  indexes : d.indexes = c.indexes
  checks : d.checks = c.checks
  views : d.views = c.views
  viewColumns : d.viewColumns = c.viewColumns

namespace Catalog.SameButKeyNames

variable {c d : Catalog}

theorem primaryKeys_created (h : c.SameButKeyNames d) :
    (c.primaryKeys.difference d.primaryKeys).created = [] := by
  refine Collection.created_eq_nil fun x hx => ?_
  rw [h.primaryKeys] at hx
  obtain ⟨y, hy, rfl⟩ := List.mem_map.1 hx
  rw [PrimaryKey.key_redeclared]
  exact Collection.hasKey_key hy

theorem primaryKeys_dropped (h : c.SameButKeyNames d) :
    (c.primaryKeys.difference d.primaryKeys).dropped = [] := by
  refine Collection.dropped_eq_nil fun x hx => ?_
  rw [← PrimaryKey.key_redeclared]
  exact Collection.hasKey_key (h.primaryKeys ▸ List.mem_map_of_mem hx)

/-- Primary keys under other names need no change. -/
theorem primaryKeys_altered (h : c.SameButKeyNames d) :
    (c.primaryKeys.difference d.primaryKeys).altered.filterMap
      (fun a => a.prune Comparison.redundantInPrimaryKey) = [] := by
  refine List.eq_nil_iff_forall_not_mem.2 fun a ha => ?_
  obtain ⟨l, hl, w, hw, e, ha⟩ := (Collection.mem_effective_iff
    (R := fun _ => Comparison.redundantInPrimaryKey)).1 ha
  rw [h.primaryKeys] at hw
  obtain ⟨k, hk, rfl⟩ := List.mem_map.1 hw
  rw [PrimaryKey.key_redeclared] at e
  rw [Collection.eq_of_key_eq hl hk e, PrimaryKey.effective?_redeclared] at ha
  cases ha

end Catalog.SameButKeyNames

/-- **Between catalogs that differ in names of primary keys only**, all that is planned are the
renames. -/
theorem Settled.scheduled_of_sameButKeyNames {x : Settled} {mode : Mode}
    (h : x.sides.source.SameButKeyNames x.sides.target) :
    (x.plan mode).scheduled =
      x.renames.tables.map (fun q => .renameTable q.old.name q.new.name) ++
        x.renames.columns.map (fun q => .renameColumn q.new.table q.old.name q.new.name) ++
          x.renames.views.map fun q => .renameView q.old.name q.new.name := by
  have hp : (x.plan mode).alterations.primaryKeys = [] := h.primaryKeys_altered
  have hd : (x.plan mode).difference.primaryKeys.dropped = [] := h.primaryKeys_dropped
  have hc : (x.plan mode).difference.primaryKeys.created = [] := h.primaryKeys_created
  have hprimary : (x.plan mode).primaryKeyStatements = [] := by
    simp [PlanInput.primaryKeyStatements, hp, hd, hc]
  rw [PlanInput.scheduled, hprimary]
  simp [PlanInput.tableStatements, PlanInput.columnStatements,
    PlanInput.indexStatements, PlanInput.foreignKeyStatements, PlanInput.checkStatements,
    PlanInput.viewStatements, Settled.plan, Catalog.difference, CatalogDifference.alterations,
    Alterations.prune, h.tables, h.columns, h.foreignKeys, h.indexes, h.checks, h.views,
    Collection.difference_self]

end SchemaEvolution
