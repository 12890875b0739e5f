import SchemaEvolution.Migration
import SchemaEvolution.Proofs.Difference
import SchemaEvolution.Proofs.Propagation

/-!
# What settling renames does

**Accepted answers account for every row that was offered** (`Resolution.Accounts`), so the renames
match rows of the two sides, whatever the resolver does.

**Settled catalogs** (`Settlement`): the source is relabelled, first its tables, then its columns
and views. The target keeps everything but names.
-/

namespace SchemaEvolution

/-! ## Answers -/

namespace Resolution

variable {α : Type} [Row α] {o : Offer α} {r : Resolution α}

/-- Every row of the offer is taken for created, deleted or a side of a renaming, and no other. -/
structure Accounts (o : Offer α) (r : Resolution α) : Prop where
  created : (o.created.map Row.key).Perm r.createdKeys
  deleted : (o.deleted.map Row.key).Perm r.deletedKeys

theorem perm_of_take : ∀ {ks pending rest : List Key},
    take pending ks = .ok rest → pending.Perm (ks ++ rest)
  | [], _, _, h => by
    cases h
    exact .refl _
  | k :: ks, pending, rest, h => by
    rw [take] at h
    split at h
    · rename_i hk
      exact (List.perm_cons_erase hk).trans ((perm_of_take h).cons k)
    · cases h

theorem eq_nil_of_eraseDups {ks : List Key} (h : ks.eraseDups = []) : ks = [] := by
  cases ks with
  | nil => rfl
  | cons k ks => simp [List.eraseDups_cons] at h

/-- **An answer that passes accounts for the offer.** -/
theorem accounts_of_verify (h : r.verify o = .ok ()) : r.Accounts o := by
  unfold verify at h
  cases hc : take (o.created.map Row.key) r.createdKeys with
  | error k => simp [hc, Except.mapError, bind, Except.bind] at h
  | ok created =>
    cases hd : take (o.deleted.map Row.key) r.deletedKeys with
    | error k => simp [hc, hd, Except.mapError, bind, Except.bind] at h
    | ok deleted =>
      simp only [hc, hd, Except.mapError, bind, Except.bind] at h
      split at h
      · rename_i hnil
        obtain ⟨hcn, hdn⟩ := List.append_eq_nil_iff.1 hnil
        constructor
        · simpa [eq_nil_of_eraseDups hcn] using perm_of_take hc
        · simpa [eq_nil_of_eraseDups hdn] using perm_of_take hd
      · cases h

theorem take_of_perm : ∀ {ks pending : List Key}, pending.Perm ks → take pending ks = .ok []
  | [], _, h => by rw [h.eq_nil]; rfl
  | k :: ks, pending, h => by
    rw [take, if_pos (h.mem_iff.2 (List.mem_cons_self ..))]
    exact take_of_perm (List.cons_perm_iff_perm_erase.1 h.symm).2.symm

theorem Accounts.verify (h : r.Accounts o) : r.verify o = .ok () := by
  rw [Resolution.verify, take_of_perm h.created, take_of_perm h.deleted]
  rfl

theorem accounts_unchanged (o : Offer α) : (unchanged o).Accounts o := by
  constructor <;> simp [unchanged, createdKeys, deletedKeys]

namespace Accounts

variable {s : Renaming α}

theorem exists_old (h : r.Accounts o) (hs : s ∈ r.renamed) :
    ∃ x ∈ o.deleted, Row.key x = Row.key s.old := by
  refine List.mem_map.1 (h.deleted.mem_iff.2 ?_)
  exact List.mem_map_of_mem (List.mem_append_right _ (List.mem_map_of_mem hs))

theorem exists_new (h : r.Accounts o) (hs : s ∈ r.renamed) :
    ∃ x ∈ o.created, Row.key x = Row.key s.new := by
  refine List.mem_map.1 (h.created.mem_iff.2 ?_)
  exact List.mem_map_of_mem (List.mem_append_right _ (List.mem_map_of_mem hs))

theorem nodup_old (h : r.Accounts o) (hn : (o.deleted.map Row.key).Nodup) :
    (r.renamed.map fun s => Row.key s.old).Nodup := by
  have hd := h.deleted.nodup_iff.1 hn
  rw [deletedKeys, List.map_append, List.map_map] at hd
  exact hd.sublist (List.sublist_append_right ..)

theorem nodup_new (h : r.Accounts o) (hn : (o.created.map Row.key).Nodup) :
    (r.renamed.map fun s => Row.key s.new).Nodup := by
  have hd := h.created.nodup_iff.1 hn
  rw [createdKeys, List.map_append, List.map_map] at hd
  exact hd.sublist (List.sublist_append_right ..)

end Accounts

end Resolution

/-! ## Offers -/

/-- The offer consists of rows of one side that have no match on the other side. -/
structure Offer.Between {α : Type} [Row α] (source target : Collection α) (o : Offer α) : Prop where
  created : o.created.Sublist target.rows
  deleted : o.deleted.Sublist source.rows
  created_new : ∀ x ∈ o.created, source.hasKey (Row.key x) = false
  deleted_gone : ∀ x ∈ o.deleted, target.hasKey (Row.key x) = false

section

variable {α φ : Type} {ν : φ → Type} [Row α] {source target : Collection α} {o : Offer α}
  {r : Resolution α}

theorem offer_between [Attributed α φ ν] (source target : Collection α) :
    (Settled.offer (source.difference target (ν := ν))).Between source target where
  created := List.filter_sublist
  deleted := List.filter_sublist
  created_new x hx := by simpa using (List.mem_filter.1 hx).2
  deleted_gone x hx := by simpa using (List.mem_filter.1 hx).2

/-- **Renames that account for an offer match rows of the two sides.** -/
theorem matching_of_accounts (ho : o.Between source target) (h : r.Accounts o) :
    Matching source target r.renamed where
  old_nodup := h.nodup_old (source.keys_nodup.sublist (ho.deleted.map _))
  new_nodup := h.nodup_new (target.keys_nodup.sublist (ho.created.map _))
  old_in_source s hs := by
    obtain ⟨x, hx, e⟩ := h.exists_old hs
    exact Collection.hasKey_iff_exists.2 ⟨x, ho.deleted.subset hx, e⟩
  old_not_in_target s hs := by
    obtain ⟨x, hx, e⟩ := h.exists_old hs
    exact e ▸ ho.deleted_gone x hx
  new_in_target s hs := by
    obtain ⟨x, hx, e⟩ := h.exists_new hs
    exact Collection.hasKey_iff_exists.2 ⟨x, ho.created.subset hx, e⟩
  new_not_in_source s hs := by
    obtain ⟨x, hx, e⟩ := h.exists_new hs
    exact e ▸ ho.created_new x hx

theorem Matching.append {rs qs : List (Renaming α)} (h : Matching source target rs)
    (h' : Matching source target qs) (hold : ∀ r ∈ rs, ∀ q ∈ qs, Row.key r.old ≠ Row.key q.old)
    (hnew : ∀ r ∈ rs, ∀ q ∈ qs, Row.key r.new ≠ Row.key q.new) :
    Matching source target (rs ++ qs) where
  old_nodup := by
    rw [List.map_append, List.nodup_append]
    refine ⟨h.old_nodup, h'.old_nodup, fun a ha b hb => ?_⟩
    obtain ⟨r, hr, rfl⟩ := List.mem_map.1 ha
    obtain ⟨q, hq, rfl⟩ := List.mem_map.1 hb
    exact hold r hr q hq
  new_nodup := by
    rw [List.map_append, List.nodup_append]
    refine ⟨h.new_nodup, h'.new_nodup, fun a ha b hb => ?_⟩
    obtain ⟨r, hr, rfl⟩ := List.mem_map.1 ha
    obtain ⟨q, hq, rfl⟩ := List.mem_map.1 hb
    exact hnew r hr q hq
  old_in_source r hr := (List.mem_append.1 hr).elim (h.old_in_source r) (h'.old_in_source r)
  old_not_in_target r hr :=
    (List.mem_append.1 hr).elim (h.old_not_in_target r) (h'.old_not_in_target r)
  new_in_target r hr := (List.mem_append.1 hr).elim (h.new_in_target r) (h'.new_in_target r)
  new_not_in_source r hr :=
    (List.mem_append.1 hr).elim (h.new_not_in_source r) (h'.new_not_in_source r)

end

namespace Settled

variable {α σ : Type} [Row α] {o : Offer α} {r : Resolution α}
  {ask : Offer α → StateM σ (Except String (Resolution α))} {a b : σ}

/-- **Whatever a resolver answers**, only an answer that accounts for the offer is accepted. -/
theorem returns_answer (h : Returns (answer ask o) a r b) : r.Accounts o := by
  unfold answer at h
  split at h
  · obtain ⟨rfl, -⟩ := returns_pure_iff.1 h
    exact Resolution.accounts_unchanged o
  · obtain ⟨_, _, -, h⟩ := returns_bind_iff.1 h
    split at h
    · exact absurd h not_returns_throw
    · split at h
      · exact absurd h not_returns_throw
      · rename_i hv
        obtain ⟨rfl, -⟩ := returns_pure_iff.1 h
        exact Resolution.accounts_of_verify hv

end Settled

/-! ## Columns by table -/

/-- The group consists of the columns of its table that have no match on the other side. -/
structure ColumnGroup.Between (source target : Collection Column) (g : ColumnGroup) : Prop where
  offer : Offer.Between source target ⟨g.created, g.dropped⟩
  created_table : ∀ c ∈ g.created, c.table = g.table
  dropped_table : ∀ c ∈ g.dropped, c.table = g.table

theorem ColumnGroup.nodup_tables (created dropped : List Column) (ts ds : List Table) :
    ((ofColumns created dropped ts ds).map (·.table)).Nodup := by
  rw [ofColumns, List.map_map]
  refine List.Nodup.map (fun _ _ h => h) ?_
  exact (List.mergeSort_perm _ _).nodup_iff.2 (nodup_eraseDups _)

theorem ColumnGroup.between {source target : Collection Column} (ts ds : List Table) :
    ∀ g ∈ ofColumns (source.difference target).created (source.difference target).dropped ts ds,
      g.Between source target := by
  intro g hg
  obtain ⟨t, -, rfl⟩ := List.mem_map.1 hg
  have ho := offer_between source target
  have hc := ho.created
  have hd := ho.deleted
  exact {
    offer := {
      created := (List.filter_sublist.trans List.filter_sublist).trans hc
      deleted := (List.filter_sublist.trans List.filter_sublist).trans hd
      created_new := fun x hx =>
        ho.created_new x ((List.filter_sublist.trans List.filter_sublist).subset hx)
      deleted_gone := fun x hx =>
        ho.deleted_gone x ((List.filter_sublist.trans List.filter_sublist).subset hx) }
    created_table := fun x hx => by simpa using (List.mem_filter.1 hx).2
    dropped_table := fun x hx => by simpa using (List.mem_filter.1 hx).2 }

namespace Settled

variable {σ : Type} {r : Resolver (StateM σ)}

/-- **Columns are renamed within their table**, and the renames of all tables match. -/
theorem returns_renamedColumns {source target : Collection Column} :
    ∀ {groups : List ColumnGroup} {a b : σ} {rs : List (Renaming Column)},
      (groups.map (·.table)).Nodup → (∀ g ∈ groups, g.Between source target) →
      Returns (renamedColumns r groups) a rs b →
      Matching source target rs ∧
        ∀ q ∈ rs, q.new.table = q.old.table ∧ q.old.table ∈ groups.map (·.table)
  | [], _, _, _, _, _, h => by
    obtain ⟨rfl, -⟩ := returns_pure_iff.1 h
    exact ⟨⟨.nil, .nil, by simp, by simp, by simp, by simp⟩, by simp⟩
  | g :: groups, _, _, _, hn, hg, h => by
    obtain ⟨answered, _, h₁, h⟩ := returns_bind_iff.1 h
    obtain ⟨rest, _, h₂, h⟩ := returns_bind_iff.1 h
    obtain ⟨rfl, -⟩ := returns_pure_iff.1 h
    obtain ⟨hgn, hn⟩ := List.nodup_cons.1 hn
    have hb := hg g (List.mem_cons_self ..)
    have ha := returns_answer h₁
    obtain ⟨hm, ht⟩ :=
      returns_renamedColumns hn (fun g' hg' => hg g' (List.mem_cons_of_mem _ hg')) h₂
    have hold : ∀ q ∈ answered.renamed, q.old.table = g.table := fun q hq => by
      obtain ⟨x, hx, e⟩ := ha.exists_old hq
      exact (Key.scoped.inj e).1 ▸ hb.dropped_table x hx
    have hnew : ∀ q ∈ answered.renamed, q.new.table = g.table := fun q hq => by
      obtain ⟨x, hx, e⟩ := ha.exists_new hq
      exact (Key.scoped.inj e).1 ▸ hb.created_table x hx
    constructor
    · refine (matching_of_accounts hb.offer ha).append hm (fun q hq p hp e => ?_)
        (fun q hq p hp e => ?_)
      · have hp' := (ht p hp).2
        rw [← (Key.scoped.inj e).1, hold q hq] at hp'
        exact hgn hp'
      · have hp' := (ht p hp).2
        rw [← (ht p hp).1, ← (Key.scoped.inj e).1, hnew q hq] at hp'
        exact hgn hp'
    · intro q hq
      rcases List.mem_append.1 hq with hq | hq
      · rw [hnew q hq, hold q hq]
        exact ⟨rfl, List.mem_cons_self ..⟩
      · exact ⟨(ht q hq).1, List.mem_cons_of_mem _ (ht q hq).2⟩

end Settled

/-! ## Settled catalogs -/

theorem Sides.carry_eq_ok_iff {e : SidesEdit Unit} {s t : Sides} :
    s.carry e = .ok t ↔ Returns e s () t := by
  show Sides.carry e s = .ok t ↔ e.run s = (.ok (), t)
  unfold Sides.carry
  rcases e.run s with ⟨_ | ⟨⟩, u⟩ <;> simp

/-- What becomes of two catalogs when their renames are settled. Tables get their new names first;
`middle` is the source after that. -/
structure Settlement (source target : Catalog) (x : Settled) (middle : Catalog) : Prop where
  renamed_tables : source.IsRelabelled (.ofTableRenames x.renames.tables) middle
  renamed_rest : middle.IsRelabelled
    ((Relabelling.ofColumnRenames x.renames.columns).andThen (.ofViewRenames x.renames.views))
    x.sides.source
  kept : target.SameButNames x.sides.target
  tables : Matching source.tables target.tables x.renames.tables
  columns : Matching middle.columns target.columns x.renames.columns
  columns_table : ∀ r ∈ x.renames.columns, r.new.table = r.old.table
  views : Matching source.views target.views x.renames.views

theorem Settlement.renamed {source target middle : Catalog} {x : Settled}
    (h : Settlement source target x middle) :
    source.IsRelabelled x.renames.relabelling x.sides.source :=
  h.renamed_tables.trans h.renamed_rest

section

variable {σ : Type} {r : Resolver (StateM σ)} {s t : Sides} {a b : σ}

theorem Settled.returns_tables {resolution : Resolution Table}
    (h : Returns (Settled.tables r s) a (resolution, t) b) :
    Matching s.source.tables s.target.tables resolution.renamed ∧
      s.source.IsRelabelled (.ofTableRenames resolution.renamed) t.source ∧
        s.target.SameButNames t.target := by
  obtain ⟨_, _, ha, h⟩ := returns_bind_iff.1 h
  obtain ⟨_, _, hc, h⟩ := returns_bind_iff.1 h
  cases (returns_pure_iff.1 h).1
  refine ⟨matching_of_accounts (offer_between ..) (returns_answer ha), ?_⟩
  exact Propagate.returns_renameTables (Sides.carry_eq_ok_iff.1 (returns_except_iff.1 hc).1)

theorem Settled.returns_columns {tables : Resolution Table} {rs : List (Renaming Column)}
    (h : Returns (Settled.columns r tables s) a (rs, t) b) :
    Matching s.source.columns s.target.columns rs ∧ (∀ q ∈ rs, q.new.table = q.old.table) ∧
      s.source.IsRelabelled (.ofColumnRenames rs) t.source ∧ s.target.SameButNames t.target := by
  obtain ⟨_, _, ha, h⟩ := returns_bind_iff.1 h
  obtain ⟨_, _, hc, h⟩ := returns_bind_iff.1 h
  cases (returns_pure_iff.1 h).1
  obtain ⟨hm, ht⟩ := returns_renamedColumns (ColumnGroup.nodup_tables ..)
    (ColumnGroup.between tables.created tables.deleted) ha
  refine ⟨hm, fun q hq => (ht q hq).1, ?_⟩
  exact Propagate.returns_renameColumns (Sides.carry_eq_ok_iff.1 (returns_except_iff.1 hc).1)

theorem Settled.returns_views {rs : List (Renaming View)}
    (h : Returns (Settled.views r s) a (rs, t) b) :
    Matching s.source.views s.target.views rs ∧
      s.source.IsRelabelled (.ofViewRenames rs) t.source ∧ t.target = s.target := by
  obtain ⟨_, _, ha, h⟩ := returns_bind_iff.1 h
  obtain ⟨_, _, hc, h⟩ := returns_bind_iff.1 h
  cases (returns_pure_iff.1 h).1
  refine ⟨matching_of_accounts (offer_between ..) (returns_answer ha), ?_⟩
  exact Propagate.returns_renameViews (Sides.carry_eq_ok_iff.1 (returns_except_iff.1 hc).1)

/-- **Settling renames gives settled catalogs**, whatever the resolver does. -/
theorem exists_settlement {x : Settled} (h : Returns (Sides.settle r s) a x b) :
    ∃ middle, Settlement s.source s.target x middle := by
  obtain ⟨⟨tables, s₁⟩, _, h₁, h⟩ := returns_bind_iff.1 h
  obtain ⟨⟨columns, s₂⟩, _, h₂, h⟩ := returns_bind_iff.1 h
  obtain ⟨⟨views, s₃⟩, _, h₃, h⟩ := returns_bind_iff.1 h
  obtain ⟨rfl, -⟩ := returns_pure_iff.1 h
  obtain ⟨hmt, hrt, hkt⟩ := Settled.returns_tables h₁
  obtain ⟨hmc, htc, hrc, hkc⟩ := Settled.returns_columns h₂
  obtain ⟨hmv, hrv, hkv⟩ := Settled.returns_views h₃
  -- Neither tables nor columns are known to views, so the views are still those of the start.
  have hv : s₂.source.views = s.source.views := by
    refine Collection.ext_rows ?_
    rw [hrc.views, hrt.views, map_relabel_eq_self fun _ => rfl, map_relabel_eq_self fun _ => rfl]
  have hk := hkt.trans hkc
  refine ⟨s₁.source, hrt, hrc.trans hrv, hkv ▸ hk, hmt, hkt.columns ▸ hmc, htc, ?_⟩
  rw [hv, hk.views] at hmv
  exact hmv

theorem Migration.statements_ofSettled {options : MigrationOptions} {x : Settled} :
    (Migration.ofSettled options x).statements = (x.plan options.mode).statements :=
  rfl

/-- A migration is planned between settled catalogs, and planning cannot fail. -/
theorem Migration.returns_between_iff {options : MigrationOptions} {source target : Catalog}
    {m : Migration} :
    Returns (Migration.between r options source target) a m b ↔
      ∃ x, Returns (Sides.settle r ⟨source, target⟩) a x b ∧ Migration.ofSettled options x = m := by
  unfold Migration.between
  simp only [returns_bind_iff, returns_pure_iff]
  exact exists_congr fun x => ⟨fun ⟨_, h, e, h'⟩ => ⟨h' ▸ h, e⟩, fun ⟨h, e⟩ => ⟨b, h, e, rfl⟩⟩

theorem Migration.returns_between {source target : Catalog} {x : Settled}
    (options : MigrationOptions)
    (h : Returns (Sides.settle r ⟨source, target⟩) a x b) :
    Returns (Migration.between r options source target) a (.ofSettled options x) b :=
  Migration.returns_between_iff.2 ⟨x, h, rfl⟩

end

end SchemaEvolution
