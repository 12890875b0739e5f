import SchemaEvolution.Proofs.DistinctNames
import SchemaEvolution.Proofs.KnownRenames

/-!
# Runs from recorded renames

A migration records its renames as entries. They stand in one flat list, from which every offer
takes what belongs to it: entries of tables, columns and views cannot be taken for each other, nor
can those of columns of different tables.

**Step by step the renames are found again** (`Settled.replays_tables`, `Settled.replays_columns`,
`Settled.replays_views`), whoever has answered in the first run. So **a second run that knows the
recorded renames gives the same migration** (`Migration.replays`).
-/

namespace SchemaEvolution

/-- The keys of the renames of a run, in the order of their entries. -/
def Renames.keys (rs : Renames) : List (Key × Key) :=
  renamedKeys rs.tables ++ renamedKeys rs.columns ++ renamedKeys rs.views

theorem Renames.entries_eq (rs : Renames) : rs.entries = (RenameTable.ofKeys rs.keys).entries := by
  simp only [entries, RenameTable.entries, RenameTable.ofKeys, keys, renamedKeys, List.map_append,
    List.map_map]
  rfl

/-- The names of tables, columns and views are plain, and no table is called like a view. -/
structure Catalog.PlainlyNamed (c : Catalog) : Prop where
  tables : ∀ x ∈ c.tables.rows, Plain x.name
  columns : ∀ x ∈ c.columns.rows, Plain x.table ∧ Plain x.name
  views : ∀ x ∈ c.views.rows, Plain x.name
  apart : ∀ x ∈ c.tables.rows, ∀ v ∈ c.views.rows, x.name ≠ v.name

instance (c : Catalog) : Decidable c.PlainlyNamed :=
  decidable_of_iff
    ((∀ x ∈ c.tables.rows, Plain x.name) ∧
      (∀ x ∈ c.columns.rows, Plain x.table ∧ Plain x.name) ∧ (∀ x ∈ c.views.rows, Plain x.name) ∧
      ∀ x ∈ c.tables.rows, ∀ v ∈ c.views.rows, x.name ≠ v.name)
    ⟨fun ⟨ht, hc, hv, ha⟩ => ⟨ht, hc, hv, ha⟩, fun ⟨ht, hc, hv, ha⟩ => ⟨ht, hc, hv, ha⟩⟩

/-! ## Offers between plain rows -/

section

variable {α φ : Type} {ν : φ → Type} [Row α] {source target : Collection α} {o : Offer α}

theorem Offer.Between.isPlain (ho : o.Between source target)
    (hs : ∀ x ∈ source.rows, (Row.key x).IsPlain) (ht : ∀ x ∈ target.rows, (Row.key x).IsPlain) :
    o.IsPlain :=
  ⟨fun x hx => ht x (ho.created.subset hx), fun x hx => hs x (ho.deleted.subset hx)⟩

theorem Offer.Between.nodup_deleted (ho : o.Between source target) :
    (o.deleted.map Row.key).Nodup :=
  source.keys_nodup.sublist (ho.deleted.map _)

theorem Offer.Between.nodup_created (ho : o.Between source target) :
    (o.created.map Row.key).Nodup :=
  target.keys_nodup.sublist (ho.created.map _)

theorem Resolution.Accounts.filter_has {r : Resolution α} (h : r.Accounts o) :
    (renamedKeys r.renamed).filter o.Has = renamedKeys r.renamed := by
  refine List.filter_eq_self.2 fun k hk => decide_eq_true ?_
  obtain ⟨q, hq, rfl⟩ := List.mem_map.1 hk
  obtain ⟨x, hx, ex⟩ := h.exists_old hq
  obtain ⟨y, hy, ey⟩ := h.exists_new hq
  exact ⟨List.mem_map.2 ⟨x, hx, ex⟩, List.mem_map.2 ⟨y, hy, ey⟩⟩

theorem Resolution.Accounts.perm_rest {r r' : Resolution α} (h : r.Accounts o)
    (h' : r'.Accounts o) (hk : renamedKeys r'.renamed = renamedKeys r.renamed) :
    (r'.created.map Row.key).Perm (r.created.map Row.key) ∧
      (r'.deleted.map Row.key).Perm (r.deleted.map Row.key) := by
  have hnew : (r'.renamed.map (·.new)).map Row.key = (r.renamed.map (·.new)).map Row.key := by
    simpa [renamedKeys, Function.comp_def] using congrArg (List.map Prod.snd) hk
  have hold : (r'.renamed.map (·.old)).map Row.key = (r.renamed.map (·.old)).map Row.key := by
    simpa [renamedKeys, Function.comp_def] using congrArg (List.map Prod.fst) hk
  have hc := h'.created.symm.trans h.created
  have hd := h'.deleted.symm.trans h.deleted
  rw [createdKeys, createdKeys, List.map_append, List.map_append, hnew] at hc
  rw [deletedKeys, deletedKeys, List.map_append, List.map_append, hold] at hd
  exact ⟨(List.perm_append_right_iff _).1 hc, (List.perm_append_right_iff _).1 hd⟩

end

/-! ## The steps of a run -/

theorem ColumnGroup.ofColumns_congr {created dropped : List Column} {ts ts' ds ds' : List Table}
    (ht : (ts.map Row.key).Perm (ts'.map Row.key)) (hd : (ds.map Row.key).Perm (ds'.map Row.key)) :
    ofColumns created dropped ts ds = ofColumns created dropped ts' ds' := by
  have hany {xs ys : List Table} (h : (xs.map Row.key).Perm (ys.map Row.key)) (n : String) :
      xs.any (·.name == n) = ys.any (·.name == n) := by
    have hmem {zs : List Table} :
        zs.any (·.name == n) = true ↔ Key.single n ∈ zs.map Row.key := by
      simp [Row.key]
    rw [Bool.eq_iff_iff, hmem, hmem, h.mem_iff]
  simp only [ofColumns, hany ht, hany hd]

/-- **A group takes nothing of other tables.** -/
theorem ColumnGroup.Between.filter_has_eq_nil {source target : Collection Column} {g : ColumnGroup}
    (hb : g.Between source target) {rs : List (Renaming Column)}
    (hrs : ∀ q ∈ rs, q.old.table ≠ g.table) :
    (renamedKeys rs).filter (Offer.mk g.created g.dropped).Has = [] := by
  refine List.filter_eq_nil_iff.2 fun k hk => ?_
  obtain ⟨q, hq, rfl⟩ := List.mem_map.1 hk
  rw [decide_eq_true_eq]
  intro hhas
  obtain ⟨x, hx, e⟩ := List.mem_map.1 hhas.1
  exact hrs q hq ((Key.scoped.inj e).1.symm.trans (hb.dropped_table x hx))

namespace Settled

variable {σ : Type} {r : Resolver (StateM σ)} {s s' : Sides} {a b : σ} {ks : List (Key × Key)}

/-- **The tables are renamed again.** -/
theorem replays_tables {resolution : Resolution Table}
    (h : Returns (tables r s) a (resolution, s') b)
    (hs : ∀ x ∈ s.source.tables.rows, Plain x.name) (ht : ∀ x ∈ s.target.tables.rows, Plain x.name)
    (hks : ∀ k ∈ ks, k.1.IsPlain ∧ k.2.IsPlain)
    (hhas : ks.filter (offer (s.source.tables.difference s.target.tables)).Has =
      (renamedKeys resolution.renamed).filter
        (offer (s.source.tables.difference s.target.tables)).Has) :
    ∃ again : Resolution Table,
      (again.created.map Row.key).Perm (resolution.created.map Row.key) ∧
      (again.deleted.map Row.key).Perm (resolution.deleted.map Row.key) ∧
      again.renamed = resolution.renamed ∧
      ∀ {τ : Type} (u : τ),
        Returns (tables (RenameTable.ofKeys ks).resolver s) u (again, s') u := by
  obtain ⟨_, _, ha, h⟩ := returns_bind_iff.1 h
  obtain ⟨_, _, hc, h⟩ := returns_bind_iff.1 h
  cases (returns_pure_iff.1 h).1
  have ho := offer_between s.source.tables s.target.tables
  rw [(returns_answer ha).filter_has] at hhas
  obtain ⟨again, hagain, hkeys, hrun⟩ := returns_answer_known Table.name ha
    (fun _ => rfl) (ho.isPlain hs ht) hks ho.nodup_deleted ho.nodup_created hhas
  obtain ⟨hcreated, hdeleted⟩ := (returns_answer ha).perm_rest hagain hkeys
  have hsame := tables_eq_of_renamedKeys hkeys
  refine ⟨again, hcreated, hdeleted, hsame, fun u => ?_⟩
  refine returns_bind_iff.2 ⟨again, u, hrun u, returns_bind_iff.2 ⟨s', u, ?_, ?_⟩⟩
  · exact returns_except_iff.2 ⟨hsame ▸ (returns_except_iff.1 hc).1, rfl⟩
  · exact returns_pure_iff.2 ⟨rfl, rfl⟩

/-- **Group by group the columns are renamed again.** Each group takes the renames of its table. -/
theorem replays_renamedColumns {source target : Collection Column}
    (hs : ∀ x ∈ source.rows, (Row.key x).IsPlain) (ht : ∀ x ∈ target.rows, (Row.key x).IsPlain)
    (hks : ∀ k ∈ ks, k.1.IsPlain ∧ k.2.IsPlain) :
    ∀ {groups : List ColumnGroup} {a b : σ} {rs : List (Renaming Column)},
      (groups.map (·.table)).Nodup → (∀ g ∈ groups, g.Between source target) →
      Returns (renamedColumns r groups) a rs b →
      (∀ g ∈ groups, ks.filter (Offer.mk g.created g.dropped).Has =
        (renamedKeys rs).filter (Offer.mk g.created g.dropped).Has) →
      ∃ again : List (Renaming Column), renamedKeys again = renamedKeys rs ∧
        ∀ {τ : Type} (u : τ),
          Returns (renamedColumns (RenameTable.ofKeys ks).resolver groups) u again u
  | [], _, _, _, _, _, h, _ => by
    obtain ⟨rfl, -⟩ := returns_pure_iff.1 h
    exact ⟨[], rfl, fun u => returns_pure_iff.2 ⟨rfl, rfl⟩⟩
  | g :: groups, _, _, _, hn, hg, h, hhas => by
    obtain ⟨answered, _, h₁, h⟩ := returns_bind_iff.1 h
    obtain ⟨rest, _, h₂, h⟩ := returns_bind_iff.1 h
    obtain ⟨rfl, -⟩ := returns_pure_iff.1 h
    obtain ⟨hgn, hn⟩ := List.nodup_cons.1 hn
    have hb := hg g (List.mem_cons_self ..)
    have hg' : ∀ g' ∈ groups, g'.Between source target := fun g' hg'' =>
      hg g' (List.mem_cons_of_mem _ hg'')
    have htable := (returns_renamedColumns hn hg' h₂).2
    have hother : ∀ q ∈ answered.renamed, q.old.table = g.table := fun q hq => by
      obtain ⟨x, hx, e⟩ := (returns_answer h₁).exists_old hq
      exact (Key.scoped.inj e).1.symm.trans (hb.dropped_table x hx)
    -- What has been renamed is all of one table, and no later group is of that table.
    have hhead : ks.filter (Offer.mk g.created g.dropped).Has = renamedKeys answered.renamed := by
      rw [hhas g (List.mem_cons_self ..), renamedKeys_append, List.filter_append,
        (returns_answer h₁).filter_has, hb.filter_has_eq_nil, List.append_nil]
      intro q hq e
      have hq' := (htable q hq).2
      rw [e] at hq'
      exact hgn hq'
    have htail : ∀ g' ∈ groups, ks.filter (Offer.mk g'.created g'.dropped).Has =
        (renamedKeys rest).filter (Offer.mk g'.created g'.dropped).Has := fun g' hg'' => by
      rw [hhas g' (List.mem_cons_of_mem _ hg''), renamedKeys_append, List.filter_append,
        (hg' g' hg'').filter_has_eq_nil, List.nil_append]
      intro q hq e
      rw [hother q hq] at e
      exact hgn (List.mem_map.2 ⟨g', hg'', e.symm⟩)
    obtain ⟨again, -, hkeys, hrun⟩ := returns_answer_known Column.path h₁ (fun _ => rfl)
      (hb.offer.isPlain hs ht) hks hb.offer.nodup_deleted hb.offer.nodup_created hhead
    obtain ⟨agains, hkeys', hrun'⟩ := replays_renamedColumns hs ht hks hn hg' h₂ htail
    refine ⟨again.renamed ++ agains, ?_, fun u => ?_⟩
    · rw [renamedKeys_append, renamedKeys_append, hkeys, hkeys']
    · refine returns_bind_iff.2 ⟨again, u, hrun u, ?_⟩
      exact returns_bind_iff.2 ⟨agains, u, hrun' u, returns_pure_iff.2 ⟨rfl, rfl⟩⟩

/-- **The columns are renamed again.** -/
theorem replays_columns {tables again : Resolution Table} {rs : List (Renaming Column)}
    (h : Returns (columns r tables s) a (rs, s') b)
    (hcreated : (again.created.map Row.key).Perm (tables.created.map Row.key))
    (hdeleted : (again.deleted.map Row.key).Perm (tables.deleted.map Row.key))
    (hs : ∀ x ∈ s.source.columns.rows, (Row.key x).IsPlain)
    (ht : ∀ x ∈ s.target.columns.rows, (Row.key x).IsPlain)
    (hks : ∀ k ∈ ks, k.1.IsPlain ∧ k.2.IsPlain)
    (hhas : ∀ o : Offer Column, ks.filter o.Has = (renamedKeys rs).filter o.Has) :
    ∃ agains : List (Renaming Column), renamedKeys agains = renamedKeys rs ∧
      ∀ {τ : Type} (u : τ),
        Returns (columns (RenameTable.ofKeys ks).resolver again s) u (agains, s') u := by
  obtain ⟨_, _, ha, h⟩ := returns_bind_iff.1 h
  obtain ⟨_, _, hc, h⟩ := returns_bind_iff.1 h
  cases (returns_pure_iff.1 h).1
  obtain ⟨agains, hkeys, hrun⟩ := replays_renamedColumns hs ht hks (ColumnGroup.nodup_tables ..)
    (ColumnGroup.between tables.created tables.deleted) ha fun g _ => hhas _
  have hcarry : s.carry (Propagate.renameColumns agains) = .ok s' := by
    rw [Propagate.renameColumns, columnNames_congr hkeys]
    exact (returns_except_iff.1 hc).1
  refine ⟨agains, hkeys, fun u => ?_⟩
  refine returns_bind_iff.2 ⟨agains, u, ?_, returns_bind_iff.2 ⟨s', u, ?_, ?_⟩⟩
  · rw [ColumnGroup.ofColumns_congr hcreated hdeleted]
    exact hrun u
  · exact returns_except_iff.2 ⟨hcarry, rfl⟩
  · exact returns_pure_iff.2 ⟨rfl, rfl⟩

/-- **The views are renamed again.** -/
theorem replays_views {rs : List (Renaming View)} (h : Returns (views r s) a (rs, s') b)
    (hs : ∀ x ∈ s.source.views.rows, Plain x.name) (ht : ∀ x ∈ s.target.views.rows, Plain x.name)
    (hks : ∀ k ∈ ks, k.1.IsPlain ∧ k.2.IsPlain)
    (hhas : ks.filter (offer (s.source.views.difference s.target.views)).Has =
      (renamedKeys rs).filter (offer (s.source.views.difference s.target.views)).Has) :
    ∃ agains : List (Renaming View), renamedKeys agains = renamedKeys rs ∧
      ∀ {τ : Type} (u : τ),
        Returns (views (RenameTable.ofKeys ks).resolver s) u (agains, s') u := by
  obtain ⟨_, _, ha, h⟩ := returns_bind_iff.1 h
  obtain ⟨_, _, hc, h⟩ := returns_bind_iff.1 h
  cases (returns_pure_iff.1 h).1
  have ho := offer_between s.source.views s.target.views
  rw [(returns_answer ha).filter_has] at hhas
  obtain ⟨again, -, hkeys, hrun⟩ := returns_answer_known View.name ha (fun _ => rfl)
    (ho.isPlain hs ht) hks ho.nodup_deleted ho.nodup_created hhas
  have hcarry : s.carry (Propagate.renameViews again.renamed) = .ok s' := by
    rw [Propagate.renameViews, viewNames_congr hkeys]
    exact (returns_except_iff.1 hc).1
  refine ⟨again.renamed, hkeys, fun u => ?_⟩
  refine returns_bind_iff.2 ⟨again, u, hrun u, returns_bind_iff.2 ⟨s', u, ?_, ?_⟩⟩
  · exact returns_except_iff.2 ⟨hcarry, rfl⟩
  · exact returns_pure_iff.2 ⟨rfl, rfl⟩

end Settled

/-! ## The whole run -/

section

variable {σ : Type} {r : Resolver (StateM σ)} {source target : Catalog} {x : Settled} {a b : σ}

/-- Tables that are renamed have plain names again. -/
theorem Catalog.PlainlyNamed.columns_of_relabelled {d : Catalog} {rs : List (Renaming Table)}
    (hs : source.PlainlyNamed) (ht : target.PlainlyNamed)
    (hm : Matching source.tables target.tables rs)
    (hd : source.IsRelabelled (.ofTableRenames rs) d) :
    ∀ x ∈ d.columns.rows, (Row.key x).IsPlain := by
  intro x hx
  rw [hd.columns] at hx
  obtain ⟨y, hy, rfl⟩ := List.mem_map.1 hx
  obtain ⟨htable, hname⟩ := hs.columns y hy
  refine ⟨?_, hname⟩
  show Plain ((Propagate.tableNames rs).apply y.table)
  rcases NameMap.apply_cases hm.nodup_tableNames y.table with hsame | hnew
  · rwa [hsame]
  · obtain ⟨q, hq, e⟩ := List.mem_map.1 hnew
    obtain ⟨z, hz, ez⟩ := Collection.hasKey_iff_exists.1 (hm.new_in_target q hq)
    have hname : z.name = (Propagate.tableNames rs).apply y.table :=
      (Key.single.inj ez).trans (congrArg Prod.snd e)
    exact hname ▸ ht.tables z hz

theorem Settlement.keys_plain {middle : Catalog} (h : Settlement source target x middle)
    (hs : source.PlainlyNamed) (ht : target.PlainlyNamed) :
    ∀ k ∈ x.renames.keys, k.1.IsPlain ∧ k.2.IsPlain := by
  have hplain {α : Type} [Row α] {c d : Collection α} {rs : List (Renaming α)}
      (hm : Matching c d rs) (hc : ∀ x ∈ c.rows, (Row.key x).IsPlain)
      (hd : ∀ x ∈ d.rows, (Row.key x).IsPlain) :
      ∀ k ∈ renamedKeys rs, k.1.IsPlain ∧ k.2.IsPlain := by
    intro k hk
    obtain ⟨q, hq, rfl⟩ := List.mem_map.1 hk
    obtain ⟨y, hy, ey⟩ := Collection.hasKey_iff_exists.1 (hm.old_in_source q hq)
    obtain ⟨z, hz, ez⟩ := Collection.hasKey_iff_exists.1 (hm.new_in_target q hq)
    exact ⟨ey ▸ hc y hy, ez ▸ hd z hz⟩
  intro k hk
  rw [Renames.keys, List.mem_append, List.mem_append] at hk
  rcases hk with (hk | hk) | hk
  · exact hplain h.tables hs.tables ht.tables k hk
  · exact hplain h.columns (hs.columns_of_relabelled ht h.tables h.renamed_tables) ht.columns k hk
  · exact hplain h.views hs.views ht.views k hk

/-- **Offers of tables, columns and views take the renames of their own kind.** -/
theorem Renames.filter_keys (target : Catalog) {rs : Renames}
    (ht : ∀ q ∈ rs.tables, source.tables.hasKey (Row.key q.old) = true)
    (hv : ∀ q ∈ rs.views, source.views.hasKey (Row.key q.old) = true)
    (hs : source.PlainlyNamed) :
    (∀ o : Offer Table, o.Between source.tables target.tables →
      rs.keys.filter o.Has = (renamedKeys rs.tables).filter o.Has) ∧
    (∀ o : Offer Column, rs.keys.filter o.Has = (renamedKeys rs.columns).filter o.Has) ∧
    ∀ o : Offer View, o.Between source.views target.views →
      rs.keys.filter o.Has = (renamedKeys rs.views).filter o.Has := by
  have hdrop {α β : Type} [Row α] [Row β] (o : Offer α) (qs : List (Renaming β))
      (h : ∀ q ∈ qs, ∀ x ∈ o.deleted, Row.key x ≠ Row.key q.old) :
      (renamedKeys qs).filter o.Has = [] := by
    refine List.filter_eq_nil_iff.2 fun k hk => ?_
    obtain ⟨q, hq, rfl⟩ := List.mem_map.1 hk
    rw [decide_eq_true_eq]
    intro hhas
    obtain ⟨x, hx, e⟩ := List.mem_map.1 hhas.1
    exact h q hq x hx e
  have hscoped {n o m : String} : Key.scoped o n ≠ .single m := nofun
  refine ⟨fun o ho => ?_, fun o => ?_, fun o ho => ?_⟩ <;>
    rw [keys, List.filter_append, List.filter_append]
  · rw [hdrop o rs.columns fun q _ x _ => hscoped.symm, hdrop o rs.views fun q hq x hx e => ?_,
      List.append_nil, List.append_nil]
    obtain ⟨v, hv, ev⟩ := Collection.hasKey_iff_exists.1 (hv q hq)
    exact hs.apart x (ho.deleted.subset hx) v hv (Key.single.inj (e.trans ev.symm))
  · rw [hdrop o rs.tables fun q _ x _ => hscoped, hdrop o rs.views fun q _ x _ => hscoped,
      List.append_nil, List.nil_append]
  · rw [hdrop o rs.tables fun q hq x hx e => ?_, hdrop o rs.columns fun q _ x _ => hscoped.symm,
      List.nil_append, List.nil_append]
    obtain ⟨t, ht, et⟩ := Collection.hasKey_iff_exists.1 (ht q hq)
    exact hs.apart t ht x (ho.deleted.subset hx) (Key.single.inj (et.trans e.symm))

/-- **Renames are settled again** in the same way by who knows them. -/
theorem Sides.replays_settle (hs : source.PlainlyNamed) (ht : target.PlainlyNamed)
    (h : Returns (Sides.settle r ⟨source, target⟩) a x b) :
    ∃ again : Settled, again.sides = x.sides ∧ again.renames.SameKeys x.renames ∧
      ∀ {τ : Type} (u : τ),
        Returns (Sides.settle (RenameTable.ofKeys x.renames.keys).resolver ⟨source, target⟩) u
          again u := by
  obtain ⟨middle, hm⟩ := exists_settlement h
  have hks := hm.keys_plain hs ht
  obtain ⟨hft, hfc, hfv⟩ :=
    Renames.filter_keys target hm.tables.old_in_source hm.views.old_in_source hs
  obtain ⟨⟨tables, s₁⟩, _, h₁, h⟩ := returns_bind_iff.1 h
  obtain ⟨⟨columns, s₂⟩, _, h₂, h⟩ := returns_bind_iff.1 h
  obtain ⟨⟨views, s₃⟩, _, h₃, h⟩ := returns_bind_iff.1 h
  obtain ⟨rfl, -⟩ := returns_pure_iff.1 h
  obtain ⟨hmt, hrt, hkt⟩ := Settled.returns_tables h₁
  obtain ⟨-, -, hrc, hkc⟩ := Settled.returns_columns h₂
  have hsv : s₂.source.views = source.views := by
    refine Collection.ext_rows ?_
    rw [hrc.views, hrt.views, map_relabel_eq_self fun _ => rfl, map_relabel_eq_self fun _ => rfl]
  have htv : s₂.target.views = target.views := (hkt.trans hkc).views
  obtain ⟨tables', hcreated, hdeleted, htables, hrun₁⟩ :=
    Settled.replays_tables h₁ hs.tables ht.tables hks (hft _ (offer_between ..))
  obtain ⟨columns', hcolumns, hrun₂⟩ := Settled.replays_columns h₂ hcreated hdeleted
    (hs.columns_of_relabelled ht hmt hrt) (by rw [hkt.columns]; exact ht.columns) hks hfc
  obtain ⟨views', hviews, hrun₃⟩ := Settled.replays_views h₃ (by rw [hsv]; exact hs.views)
    (by rw [htv]; exact ht.views) hks (by rw [hsv, htv]; exact hfv _ (offer_between ..))
  refine ⟨⟨s₃, ⟨tables'.renamed, columns', views'⟩⟩, rfl, ⟨by rw [htables], hcolumns, hviews⟩,
    fun u => ?_⟩
  refine returns_bind_iff.2 ⟨_, u, hrun₁ u, returns_bind_iff.2 ⟨_, u, hrun₂ u, ?_⟩⟩
  exact returns_bind_iff.2 ⟨_, u, hrun₃ u, returns_pure_iff.2 ⟨rfl, rfl⟩⟩

end

/-- **A second run that knows the recorded renames gives the same migration**, whoever has answered
in the first run. -/
theorem Migration.replays {σ : Type} {r : Resolver (StateM σ)} {options : MigrationOptions}
    {source target : Catalog} {a b : σ} {m : Migration} (hs : source.PlainlyNamed)
    (ht : target.PlainlyNamed)
    (h : Returns (Migration.between r options source target) a m b) :
    ∃ t, RenameTable.ofEntries m.renames = .ok t ∧
      ∀ {τ : Type} (u : τ), Returns (Migration.between t.resolver options source target) u m u := by
  obtain ⟨x, hx, rfl⟩ := Migration.returns_between_iff.1 h
  obtain ⟨middle, hm⟩ := exists_settlement hx
  obtain ⟨again, hsides, hkeys, hrun⟩ := Sides.replays_settle hs ht hx
  refine ⟨RenameTable.ofKeys x.renames.keys, ?_, fun u => ?_⟩
  · have hentries : (Migration.ofSettled options x).renames = x.renames.entries := rfl
    rw [hentries, Renames.entries_eq]
    refine RenameTable.ofEntries_entries fun p hp => ?_
    obtain ⟨k, hk, rfl⟩ := List.mem_map.1 hp
    have hplain := hm.keys_plain hs ht k hk
    exact ⟨hplain.1.recordable, hplain.2.recordable⟩
  · have hsame : Migration.ofSettled options again = Migration.ofSettled options x := by
      have hplan : (again.plan options.mode).statements = (x.plan options.mode).statements := by
        obtain ⟨sides, renames⟩ := again
        cases hsides
        exact PlanInput.statements_congr (p := x.plan options.mode) hkeys
      rw [ofSettled, ofSettled, hplan, Renames.entries_congr hkeys]
    exact hsame ▸ Migration.returns_between options (hrun u)

/-- People in a table, with a view of them. -/
def people (table column view : String) : Catalog :=
  .ofEntitiesLoose [.table ⟨table⟩, .column { table, name := column, type := "text" },
    .view { name := view, definition := "select 1" }]

/-- Takes what is gone first for what is new first, and counts. -/
def guess {α : Type} (o : Offer α) : StateM Nat (Except String (Resolution α)) := do
  modify (· + 1)
  match o.deleted, o.created with
  | old :: deleted, new :: created => return .ok ⟨created, deleted, [⟨old, new⟩]⟩
  | _, _ => return .ok (.unchanged o)

theorem Migration.replays_of_people :
    (people "users" "name" "names").PlainlyNamed ∧ (people "members" "nick" "nicks").PlainlyNamed ∧
      ∃ m, Returns (Migration.between ⟨guess, fun _ => guess, guess⟩ {}
          (people "users" "name" "names") (people "members" "nick" "nicks")) 0 m 3 ∧
        m.renames = ["users->members", "members.name->members.nick", "names->nicks"] ∧
        ∃ t, RenameTable.ofEntries m.renames = .ok t ∧
          ∀ {τ : Type} (u : τ), Returns (Migration.between t.resolver {}
            (people "users" "name" "names") (people "members" "nick" "nicks")) u m u := by
  have hs : (people "users" "name" "names").PlainlyNamed := by decide
  have ht : (people "members" "nick" "nicks").PlainlyNamed := by decide
  have hx : Returns (Sides.settle ⟨guess, fun _ => guess, guess⟩
      ⟨people "users" "name" "names", people "members" "nick" "nicks"⟩) 0
      ⟨⟨people "members" "nick" "nicks", people "members" "nick" "nicks"⟩,
        { tables := [⟨⟨"users"⟩, ⟨"members"⟩⟩]
          columns := [⟨{ table := "members", name := "name", type := "text" },
            { table := "members", name := "nick", type := "text" }⟩]
          views := [⟨{ name := "names", definition := "select 1" },
            { name := "nicks", definition := "select 1" }⟩] }⟩ 3 := by decide +kernel
  have h := Migration.returns_between {} hx
  exact ⟨hs, ht, _, h, by decide, Migration.replays hs ht h⟩

end SchemaEvolution
