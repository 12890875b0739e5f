import Mathlib.Data.List.Perm.Subperm
import SchemaEvolution.Proofs.Redeclaration
import SchemaEvolution.Proofs.WithoutRenames
import SchemaEvolution.Rename.Calls

/-!
# Migrations between equal schemas

Catalogs are equal if they hold the same rows, in whatever order (`Collection.sameRows_iff_perm`).
**Between equal catalogs there is no difference** (`Catalog.difference_of_sameRows`), so there is
nothing to offer: settling renames asks nobody and carries nothing, in whatever monad a resolver
answers (`Sides.settle_of_sameRows`).

**So the migration between equal catalogs is empty** (`Migration.between_of_sameRows`), even if the
resolver would fail and the rows refer to nothing.
-/

namespace SchemaEvolution

/-! ## Equal catalogs -/

namespace Collection

variable {α : Type} [Row α] [DecidableEq α] {c d : Collection α}

/-- **Collections hold the same rows** if those of the one are those of the other in some order. -/
theorem sameRows_iff_perm : c.sameRows d = true ↔ c.rows.Perm d.rows := by
  rw [sameRows, Bool.and_eq_true, decide_eq_true_eq, List.all_eq_true]
  constructor
  · intro ⟨hsize, hrows⟩
    -- Distinct rows that are all there, and as many as there are, are all that are there.
    have hsub : c.rows ⊆ d.rows := fun x hx =>
      (get?_eq_some_iff.1 (of_decide_eq_true (hrows x hx))).1
    exact (c.nodup_rows.subperm hsub).perm_of_length_le (Nat.le_of_eq hsize.symm)
  · intro h
    refine ⟨h.length_eq, fun x hx => decide_eq_true ?_⟩
    exact get?_eq_some_iff.2 ⟨h.mem_iff.1 hx, rfl⟩

end Collection

namespace Catalog

variable {c d : Catalog}

/-- **Equal catalogs do not differ** in rows of any kind. -/
theorem difference_of_sameRows (h : c.sameRows d = true) :
    c.difference d = ⟨⟨[], [], []⟩, ⟨[], [], []⟩, ⟨[], [], []⟩, ⟨[], [], []⟩, ⟨[], [], []⟩,
      ⟨[], [], []⟩, ⟨[], [], []⟩, ⟨[], [], []⟩⟩ := by
  simp only [sameRows, Bool.and_eq_true, Collection.sameRows_iff_perm] at h
  obtain ⟨⟨⟨⟨⟨⟨⟨ht, hc⟩, hp⟩, hf⟩, hi⟩, hk⟩, hv⟩, hw⟩ := h
  simp only [difference, Collection.difference_of_perm, ht, hc, hp, hf, hi, hk, hv, hw]

end Catalog

/-! ## Nothing to settle -/

section

variable {m : Type → Type} [Monad m] [LawfulMonad m] {s : Sides} {r : Resolver m}

/-- **Between equal catalogs nobody is asked** and nothing is renamed. -/
theorem Sides.settle_of_sameRows (h : s.source.sameRows s.target = true) :
    Sides.settle r s = pure ⟨s, {}⟩ := by
  have hd := Catalog.difference_of_sameRows h
  have ht := congrArg (·.tables.created) hd
  have hc := congrArg (·.columns.created) hd
  have hcd := congrArg (·.columns.dropped) hd
  have hv := congrArg (·.views.created) hd
  rw [settle, Settled.tables_of_none ht, pure_bind]
  simp only [Settled.columns_of_none _ hc hcd, Settled.views_of_none hv, pure_bind]
  rfl

end

/-! ## Nothing to plan -/

/-- Where nothing differs and nothing is renamed, nothing is scheduled. -/
theorem PlanInput.scheduled_eq_nil {p : PlanInput}
    (hd : p.difference = ⟨⟨[], [], []⟩, ⟨[], [], []⟩, ⟨[], [], []⟩, ⟨[], [], []⟩, ⟨[], [], []⟩,
      ⟨[], [], []⟩, ⟨[], [], []⟩, ⟨[], [], []⟩⟩)
    (ha : p.alterations = ⟨[], [], [], [], [], [], []⟩) (hr : p.renames = {}) :
    p.scheduled = [] := by
  obtain ⟨source, target, difference, alterations, renames⟩ := p
  subst hd ha hr
  rfl

theorem Settled.statements_of_sameRows {c d : Catalog} (h : c.sameRows d = true) (mode : Mode) :
    (Settled.plan mode ⟨⟨c, d⟩, {}⟩).statements = [] := by
  rw [PlanInput.statements, PlanInput.scheduled_eq_nil (p := Settled.plan mode ⟨⟨c, d⟩, {}⟩)]
  · rfl
  · rw [plan, Catalog.difference_of_sameRows h]
  · rw [plan, Catalog.difference_of_sameRows h]
    rfl
  · rw [plan]

namespace Migration

variable {m : Type → Type} [Monad m] [LawfulMonad m] (r : Resolver m) (options : MigrationOptions)
  {c d : Catalog}

theorem ofSettled_of_sameRows (h : c.sameRows d = true) :
    ofSettled options ⟨⟨c, d⟩, {}⟩ = ⟨[], ⟨[], [], []⟩, [], ""⟩ := by
  simp only [ofSettled, Settled.statements_of_sameRows h, Renderer.render, Renames.entries,
    List.map_nil, List.append_nil, migrationText, String.intercalate]

theorem between_eq_pure (h : c.sameRows d = true) :
    between r options c d = pure ⟨[], ⟨[], [], []⟩, [], ""⟩ := by
  rw [between, Sides.settle_of_sameRows (s := ⟨c, d⟩) h, pure_bind, ofSettled_of_sameRows options h]

/-- **The migration between equal catalogs is empty**, and the resolver is not called. -/
theorem between_of_sameRows (h : c.sameRows d = true) :
    between r options c d = pure ⟨[], ⟨[], [], []⟩, [], ""⟩ ∧
      (between r.recorded options c d).run.run [] =
        pure (.ok ⟨[], ⟨[], [], []⟩, [], ""⟩, []) := by
  refine ⟨between_eq_pure r options h, ?_⟩
  rw [between_eq_pure r.recorded options h]
  rfl

/-- Rows that refer to nothing: a column and a key of tables that do not exist. -/
def strayRows : List Entity :=
  [.table ⟨"users"⟩, .table ⟨"tags"⟩, .column { table := "posts", name := "id", type := "int" },
    .column { table := "users", name := "id", type := "int", notNull := true },
    .primaryKey (.implicit "roles" ["id", "id"]), .view { name := "v", definition := "" }]

theorem between_of_sameRows_of_strayRows :
    (Catalog.ofEntitiesLoose strayRows).sameRows (Catalog.ofEntitiesLoose strayRows.reverse) =
        true ∧
      let failing : Resolver Id :=
        ⟨fun _ => .error "no", fun _ _ => .error "no", fun _ => .error "no"⟩
      between failing ⟨.push, true⟩ (Catalog.ofEntitiesLoose strayRows)
          (Catalog.ofEntitiesLoose strayRows.reverse) = pure ⟨[], ⟨[], [], []⟩, [], ""⟩ := by
  have h : (Catalog.ofEntitiesLoose strayRows).sameRows
      (Catalog.ofEntitiesLoose strayRows.reverse) = true := by decide
  exact ⟨h, (between_of_sameRows _ _ h).1⟩

end Migration

end SchemaEvolution
