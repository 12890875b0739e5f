import SchemaEvolution.Proofs.Settlement

/-!
# Settling without renames

The resolver `Resolver.never` takes nothing for renamed. Then settling renames succeeds, whatever
the catalogs are, and leaves both of them as they are (`Sides.returns_settle_never`). Any other
resolver is not even asked about rows that are on both sides, in whatever monad it answers
(`Settled.tables_of_none`, `Settled.columns_of_none`, `Settled.views_of_none`).
-/

namespace SchemaEvolution

/-! ## Answers -/

namespace Resolution

variable {α : Type} [Row α]

theorem take_self : ∀ ks : List Key, take ks ks = .ok []
  | [] => rfl
  | k :: ks => by
    rw [take, if_pos (List.mem_cons_self ..), List.erase_cons_head]
    exact take_self ks

theorem verify_unchanged (o : Offer α) : (unchanged o).verify o = .ok () := by
  have hc : (unchanged o).createdKeys = o.created.map Row.key := by simp [createdKeys, unchanged]
  have hd : (unchanged o).deletedKeys = o.deleted.map Row.key := by simp [deletedKeys, unchanged]
  rw [verify, hc, hd, take_self, take_self]
  rfl

end Resolution

/-! ## Edits that change nothing -/

section

variable {α β : Type} [Row α] {c d : Catalog} {s : Sides} {part : Part α}

theorem returns_update_of_not_selects {change : α → α} {selects : α → Bool}
    (hset : part.set (part.get c) c = c) (hs : ∀ x, selects x = false) :
    Returns (Edit.update part change selects) c [] c := by
  have h : Returns (Edit.update part change selects) c _ (part.set (part.get c) c) :=
    returns_update_of (by simp [hs])
  rwa [List.filter_eq_nil_iff.2 fun x _ => by simp [hs], List.map_nil, hset] at h

end

namespace Propagate

theorem carry_renameTables_nil (s : Sides) : s.carry (renameTables []) = .ok s := by
  refine Sides.carry_eq_ok_iff.2 (returns_bind_iff.2 ⟨{}, s, ?_, ?_⟩)
  · refine returns_onSource_of (returns_bind_iff.2 ⟨[], s.source, ?_, ?_⟩)
    · exact returns_update_of_not_selects rfl fun _ => rfl
    · exact returns_pure_iff.2 ⟨rfl, rfl⟩
  · exact returns_onTarget_of (returns_pure_iff.2 ⟨rfl, rfl⟩)

theorem carry_renameColumns_nil (s : Sides) : s.carry (renameColumns []) = .ok s := by
  have hn : columnNames [] = [] := by simp [columnNames]
  rw [Sides.carry_eq_ok_iff, renameColumns, hn]
  exact returns_pure_iff.2 ⟨rfl, rfl⟩

theorem carry_renameViews_nil (s : Sides) : s.carry (renameViews []) = .ok s := by
  unfold renameViews
  refine Sides.carry_eq_ok_iff.2 (returns_onSource_of (returns_bind_iff.2 ⟨[], s.source, ?_, ?_⟩))
  · exact returns_update_of_not_selects rfl fun _ => rfl
  · refine returns_bind_iff.2 ⟨[], s.source, ?_, returns_pure_iff.2 ⟨rfl, rfl⟩⟩
    exact returns_update_of_not_selects rfl fun _ => rfl

end Propagate

/-! ## Nothing to ask -/

section

variable {m : Type → Type} [Monad m] {s : Sides} {r : Resolver m}

namespace Settled

theorem answer_of_created_nil {α : Type} [Row α]
    {ask : Offer α → m (Except String (Resolution α))} {o : Offer α} (h : o.created = []) :
    answer ask o = pure (.unchanged o) := by
  rw [answer, h]
  rfl

variable [LawfulMonad m]

theorem tables_of_none (hc : (s.source.tables.difference s.target.tables).created = []) :
    tables r s = pure (.unchanged (offer (s.source.tables.difference s.target.tables)), s) := by
  have hcarry : s.carry (Propagate.renameTables (Resolution.unchanged
      (offer (s.source.tables.difference s.target.tables))).renamed) = .ok s :=
    Propagate.carry_renameTables_nil s
  rw [tables, answer_of_created_nil hc, pure_bind, hcarry]
  exact pure_bind ..

theorem columns_of_none (tables : Resolution Table)
    (hc : (s.source.columns.difference s.target.columns).created = [])
    (hd : (s.source.columns.difference s.target.columns).dropped = []) :
    columns r tables s = pure ([], s) := by
  have hg : ColumnGroup.ofColumns (s.source.columns.difference s.target.columns).created
      (s.source.columns.difference s.target.columns).dropped tables.created tables.deleted =
        [] := by
    simp [ColumnGroup.ofColumns, hc, hd]
  simp only [columns, hg, renamedColumns, pure_bind, Propagate.carry_renameColumns_nil]
  exact pure_bind ..

theorem views_of_none (hc : (s.source.views.difference s.target.views).created = []) :
    views r s = pure ([], s) := by
  have hcarry : s.carry (Propagate.renameViews (Resolution.unchanged
      (offer (s.source.views.difference s.target.views))).renamed) = .ok s :=
    Propagate.carry_renameViews_nil s
  rw [views, answer_of_created_nil hc, pure_bind, hcarry]
  exact pure_bind ..

end Settled

end

/-! ## Settling -/

variable {σ : Type} {a : σ}

namespace Settled

/-- Whoever takes nothing for renamed is believed. -/
theorem returns_answer_unchanged {α : Type} [Row α] (o : Offer α) :
    Returns (answer (fun o => (pure (.ok (.unchanged o)) : StateM σ _)) o) a (.unchanged o) a := by
  unfold answer
  split
  · exact returns_pure_iff.2 ⟨rfl, rfl⟩
  · refine returns_bind_iff.2 ⟨.ok (.unchanged o), a, rfl, ?_⟩
    simp only [Resolution.verify_unchanged]
    exact returns_pure_iff.2 ⟨rfl, rfl⟩

theorem returns_renamedColumns_never : ∀ gs : List ColumnGroup,
    Returns (renamedColumns (.never : Resolver (StateM σ)) gs) a [] a
  | [] => returns_pure_iff.2 ⟨rfl, rfl⟩
  | g :: gs => by
    refine returns_bind_iff.2 ⟨_, a, returns_answer_unchanged _, ?_⟩
    refine returns_bind_iff.2 ⟨_, a, returns_renamedColumns_never gs, ?_⟩
    exact returns_pure_iff.2 ⟨rfl, rfl⟩

variable {r : Resolver (StateM σ)} {s : Sides}

theorem returns_columns_of_none (tables : Resolution Table)
    (hc : (s.source.columns.difference s.target.columns).created = [])
    (hd : (s.source.columns.difference s.target.columns).dropped = []) :
    Returns (columns r tables s) a ([], s) a := by
  rw [columns_of_none tables hc hd]
  exact returns_pure_iff.2 ⟨rfl, rfl⟩

theorem returns_views_of_none
    (hc : (s.source.views.difference s.target.views).created = []) :
    Returns (views r s) a ([], s) a := by
  rw [views_of_none hc]
  exact returns_pure_iff.2 ⟨rfl, rfl⟩

end Settled

/-- **Without renames, settling leaves both catalogs as they are.** -/
theorem Sides.returns_settle_never (s : Sides) (a : σ) :
    Returns (Sides.settle (.never : Resolver (StateM σ)) s) a ⟨s, {}⟩ a := by
  have ht : Returns (Settled.tables (.never : Resolver (StateM σ)) s) a
      (.unchanged (Settled.offer (s.source.tables.difference s.target.tables)), s) a := by
    refine returns_bind_iff.2 ⟨_, a, Settled.returns_answer_unchanged _, ?_⟩
    refine returns_bind_iff.2 ⟨s, a, returns_except_iff.2 ⟨?_, rfl⟩, returns_pure_iff.2 ⟨rfl, rfl⟩⟩
    exact Propagate.carry_renameTables_nil s
  have hc (tables : Resolution Table) :
      Returns (Settled.columns (.never : Resolver (StateM σ)) tables s) a ([], s) a := by
    refine returns_bind_iff.2 ⟨[], a, Settled.returns_renamedColumns_never _, ?_⟩
    refine returns_bind_iff.2 ⟨s, a, returns_except_iff.2 ⟨?_, rfl⟩, returns_pure_iff.2 ⟨rfl, rfl⟩⟩
    exact Propagate.carry_renameColumns_nil s
  have hv : Returns (Settled.views (.never : Resolver (StateM σ)) s) a ([], s) a := by
    refine returns_bind_iff.2 ⟨_, a, Settled.returns_answer_unchanged _, ?_⟩
    refine returns_bind_iff.2 ⟨s, a, returns_except_iff.2 ⟨?_, rfl⟩, returns_pure_iff.2 ⟨rfl, rfl⟩⟩
    exact Propagate.carry_renameViews_nil s
  refine returns_bind_iff.2 ⟨_, a, ht, returns_bind_iff.2 ⟨_, a, hc _, ?_⟩⟩
  exact returns_bind_iff.2 ⟨_, a, hv, returns_pure_iff.2 ⟨rfl, rfl⟩⟩

end SchemaEvolution
