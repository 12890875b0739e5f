import SchemaEvolution.Proofs.Replay.Prepared

/-!
# Dropped and renamed views

Views are dropped before views are renamed, under the names that they have at that time. A view that
is dropped was not renamed, so it is found, and what stays is what the target has as well
(`Settlement.exists_prepared`).
-/

namespace SchemaEvolution

/-- A catalog in which all rows have their final names: what is left of the source, and what has
come with created tables. -/
structure Prepared (x : Settled) (mode : Mode) (c : Catalog) : Prop where
  owned : ∀ e, e.owner? ≠ none →
    (e ∈ c.entities ↔ e ∈ x.sides.source.entities ∧ ¬(x.plan mode).ReleasesRow e ∧
        ¬(x.plan mode).Takes e ∨ e ∈ x.sides.target.entities ∧ (x.plan mode).Brings e)
  views : ∀ v, v ∈ c.views.rows ↔
    v ∈ x.sides.source.views.rows ∧ x.sides.target.views.hasKey (Row.key v) = true
  viewColumns : ∀ w, w ∈ c.viewColumns.rows ↔ w ∈ x.sides.source.viewColumns.rows

namespace Settlement

variable {source target middle b c d : Catalog} {x : Settled} {mode : Mode} {e : Entity} {y : View}

/-- Until views are dropped, they are those of the source before renames. -/
theorem mem_moved_of_view (hc : Standing source x mode c) (hd : c.IsRelabelled x.renames.moved d)
    (ho : e.owner? = none) : e ∈ d.entities ↔ e ∈ source.entities := by
  have hce : e ∈ c.entities ↔ e ∈ source.entities := by
    rw [hc]
    constructor
    · intro h
      rcases h with ⟨hes, -⟩ | ⟨-, ⟨t, ht, -⟩, -⟩
      · exact hes
      · cases ho.symm.trans ht
    · refine fun hes => .inl ⟨hes, ?_, ?_⟩
      · intro h
        obtain ⟨k, hk, -⟩ := h
        cases e with
        | view | viewColumn => cases hk
        | _ => cases ho
      · intro h
        obtain ⟨t, ht, -⟩ := h
        rw [Entity.owner?_relabel, ho] at ht
        cases ht
  rw [hd.mem_entities, ← hce]
  constructor
  · intro h
    obtain ⟨e₀, he, rfl⟩ := h
    have ho₀ : e₀.owner? = none := by
      rw [Entity.owner?_relabel, Option.map_eq_none_iff] at ho
      exact ho
    rwa [Entity.relabel_moved_of_view ho₀]
  · intro he
    exact ⟨e, he, Entity.relabel_moved_of_view ho⟩

/-- **A view stays if the target has it** after renames. -/
theorem dropView_iff (h : Settlement source target x middle) (mode : Mode)
    (hy : y ∈ source.views.rows) :
    .dropView y.name ∈ (x.plan mode).statements ↔
      x.sides.target.views.hasKey (Row.key (relabel x.renames.relabelling y)) = false := by
  have hmem : relabel x.renames.relabelling y ∈ x.sides.source.views.rows :=
    h.renamed.views ▸ List.mem_map_of_mem hy
  rw [PlanInput.mem_dropView]
  constructor
  · intro h'
    obtain ⟨v, hv, hvy⟩ := h'
    obtain ⟨hvs, hvt⟩ := Collection.mem_dropped_iff.1 hv
    obtain ⟨z, hz, rfl, hzk⟩ :=
      h.views.not_renamed h.follows_views h.renamed.views hvs (h.kept.views ▸ hvt)
    have hzy : z = y := Collection.eq_of_key_eq hz hy (hzk.symm.trans (congrArg Key.single hvy))
    rwa [hzy] at hvt
  · intro hno
    obtain ⟨z, hz, hzy, hzk⟩ :=
      h.views.not_renamed h.follows_views h.renamed.views hmem (h.kept.views ▸ hno)
    refine ⟨_, Collection.mem_dropped_iff.2 ⟨hmem, hno⟩, ?_⟩
    rw [← Catalog.eq_of_relabelled_key h.renamed.views hz hy (congrArg Row.key hzy)]
    rw [← hzy] at hzk
    exact Key.single.inj hzk

/-- **Dropped views** are those that the target does not have. -/
theorem replay_dropViews (h : Settlement source target x middle) (mode : Mode)
    (hc : ∀ e, e.owner? = none → (e ∈ c.entities ↔ e ∈ source.entities)) :
    ∃ rows, c.replay? ((x.plan mode).phase .dropViews) = some (Part.views.set rows c) ∧
      ∀ y, y ∈ rows.rows ↔ y ∈ source.views.rows ∧
        x.sides.target.views.hasKey (Row.key (relabel x.renames.relabelling y)) = true := by
  have hcv : ∀ y, y ∈ c.views.rows ↔ y ∈ source.views.rows := fun y => by
    simpa using hc (.view y) rfl
  obtain ⟨ns, hns, hn, hmem⟩ := PlanInput.exists_phase_eq Phase.holds_dropViews (x.plan mode)
  have hthere : ∀ n ∈ ns, c.views.hasKey (.single n) = true := by
    intro n hnm
    obtain ⟨v, hv, rfl⟩ := PlanInput.mem_dropView.1 ((hmem n).1 hnm)
    obtain ⟨hvs, hvt⟩ := Collection.mem_dropped_iff.1 hv
    obtain ⟨z, hz, -, hzk⟩ :=
      h.views.not_renamed h.follows_views h.renamed.views hvs (h.kept.views ▸ hvt)
    exact Collection.hasKey_iff_exists.2 ⟨z, (hcv z).2 hz, hzk.symm⟩
  obtain ⟨rows, hr, hrm⟩ := Catalog.replay?_removals Part.dropViews
    (hn.map fun _ _ => Key.single.inj) hthere
  refine ⟨rows, hns ▸ hr, fun y => (hrm y).trans ?_⟩
  rw [show Part.views.get c = c.views from rfl, hcv]
  refine and_congr_right fun hy => ?_
  have hdrop := h.dropView_iff mode hy
  rw [← hmem] at hdrop
  rw [← Bool.not_eq_false, ← hdrop]
  constructor
  · exact fun hno hyn => hno _ hyn rfl
  · exact fun hno n hnm e => hno (Key.single.inj e ▸ hnm)

/-- Only views that the target has are left when views are renamed. -/
structure ViewsLeft (source : Catalog) (x : Settled) (b : Catalog) : Prop where
  views : ∀ y, y ∈ b.views.rows ↔ y ∈ source.views.rows ∧
    x.sides.target.views.hasKey (Row.key (relabel x.renames.relabelling y)) = true
  viewColumns : ∀ w, w ∈ b.viewColumns.rows ↔ w ∈ source.viewColumns.rows

theorem ViewsLeft.mem_source (hb : ViewsLeft source x b) (he : e ∈ b.entities)
    (ho : e.owner? = none) : e ∈ source.entities := by
  cases e with
  | view y =>
    rw [Catalog.view_mem_entities] at he ⊢
    exact ((hb.views y).1 he).1
  | viewColumn w =>
    rw [Catalog.viewColumn_mem_entities] at he ⊢
    exact (hb.viewColumns w).1 he
  | _ => cases ho

theorem matching_views (h : Settlement source target x middle) (hb : ViewsLeft source x b) :
    Matching b.views x.sides.target.views x.renames.views where
  old_nodup := h.views.old_nodup
  new_nodup := h.views.new_nodup
  old_in_source r hr := by
    obtain ⟨y, hy, e⟩ := Collection.hasKey_iff_exists.1 (h.views.old_in_source r hr)
    refine Collection.hasKey_iff_exists.2 ⟨y, (hb.views y).2 ⟨hy, ?_⟩, e⟩
    rw [key_relabel, e, h.follows_views.old r hr, h.kept.views]
    exact h.views.new_in_target r hr
  old_not_in_target r hr := h.kept.views ▸ h.views.old_not_in_target r hr
  new_in_target r hr := h.kept.views ▸ h.views.new_in_target r hr
  new_not_in_source r hr := by
    rw [Collection.hasKey_eq_false_iff]
    intro y hy
    exact Collection.hasKey_eq_false_iff.1 (h.views.new_not_in_source r hr) y ((hb.views y).1 hy).1

theorem relabel_ofViewRenames_of_view (ho : e.owner? = none) :
    e.relabel (.ofViewRenames x.renames.views) = e.relabel x.renames.relabelling := by
  rw [Renames.relabelling_eq, ← Entity.relabel_relabel, Entity.relabel_moved_of_view ho]

theorem exists_renamed_views (h : Settlement source target x middle) (hb : ViewsLeft source x b) :
    ∃ d, b.IsRelabelled (.ofViewRenames x.renames.views) d := by
  refine Catalog.exists_isRelabelled fun e he e' he' hkind hkey => ?_
  by_cases ho : e.owner? = none
  · have ho' : e'.owner? = none := (Entity.owner?_eq_none_iff hkind).1 ho
    rw [relabel_ofViewRenames_of_view ho, relabel_ofViewRenames_of_view ho'] at hkey
    exact h.renamed.eq_of_key_eq (hb.mem_source he ho) (hb.mem_source he' ho') hkind hkey
  · have ho' : e'.owner? ≠ none := mt (Entity.owner?_eq_none_iff hkind).2 ho
    rw [Relabelling.ofViewRenames, Entity.relabel_ofViews ho, Entity.relabel_ofViews ho'] at hkey
    exact Catalog.eq_of_key_eq he he' hkind hkey

theorem replay_renameViews (h : Settlement source target x middle) (mode : Mode)
    (hb : ViewsLeft source x b) (hd : b.IsRelabelled (.ofViewRenames x.renames.views) d) :
    b.replay? ((x.plan mode).phase .renameViews) = some d := by
  have hm := h.matching_views hb
  obtain ⟨vs, hvs, hpv⟩ := h.phase_renameViews mode
  rw [Relabelling.ofViewRenames_perm hm hvs] at hd
  rw [hpv]
  exact Catalog.replay?_renameViews (hm.perm hvs) hd

/-- **All names are final** when views have been renamed. -/
theorem prepared_of_renamed (h : Settlement source target x middle) (hb : ViewsLeft source x b)
    (hscoped : ∀ e, e.owner? ≠ none →
      (e ∈ b.entities ↔ e ∈ x.sides.source.entities ∧ ¬(x.plan mode).ReleasesRow e ∧
          ¬(x.plan mode).Takes e ∨ e ∈ x.sides.target.entities ∧ (x.plan mode).Brings e))
    (hd : b.IsRelabelled (.ofViewRenames x.renames.views) d) : Prepared x mode d where
  owned e ho := by
    rw [← hscoped e ho, hd.mem_entities]
    constructor
    · intro h'
      obtain ⟨e₀, he, rfl⟩ := h'
      rw [Entity.owner?_relabel] at ho
      have ho₀ : e₀.owner? ≠ none := fun hno => ho (by rw [hno]; rfl)
      rwa [Relabelling.ofViewRenames, Entity.relabel_ofViews ho₀]
    · intro he
      exact ⟨e, he, Entity.relabel_ofViews ho⟩
  views v := by
    rw [hd.views, h.renamed.views, List.mem_map, List.mem_map]
    constructor
    · intro h'
      obtain ⟨y, hy, rfl⟩ := h'
      obtain ⟨hys, hyt⟩ := (hb.views y).1 hy
      exact ⟨⟨y, hys, rfl⟩, hyt⟩
    · intro h'
      obtain ⟨⟨y, hy, rfl⟩, hyt⟩ := h'
      exact ⟨y, (hb.views y).2 ⟨hy, hyt⟩, rfl⟩
  viewColumns w := by
    rw [hd.viewColumns, h.renamed.viewColumns, List.mem_map, List.mem_map]
    exact exists_congr fun y => and_congr (hb.viewColumns y) Iff.rfl

/-- The phases after which all names are final. -/
def preparing : List Phase :=
  [.createTables, .dropForeignKeys, .dropTables, .renameTables, .renameColumns, .dropViews,
    .renameViews]

/-- **The first phases succeed**, and afterwards all names are final. -/
theorem exists_prepared (h : Settlement source target x middle) (hs : source.Owned)
    (ht : target.Closed) (mode : Mode) :
    ∃ d, source.replay? (preparing.flatMap (x.plan mode).phase) = some d ∧ Prepared x mode d := by
  have htc := h.kept.closed ht
  obtain ⟨c₁, h₁, hm₁⟩ := h.replay_createTables mode hs
  obtain ⟨c₂, h₂, hm₂⟩ := h.replay_dropForeignKeys hs hm₁
  obtain ⟨c₃, h₃, hm₃⟩ := h.replay_dropTables hs hm₂
  obtain ⟨c₅, hc₅⟩ := h.exists_moved hs htc hm₃
  obtain ⟨c₄, h₄, h₅⟩ := h.replay_moved hs htc.toOwned hm₃ hc₅
  have hview : ∀ e, e.owner? = none → (e ∈ c₅.entities ↔ e ∈ source.entities) :=
    fun e => mem_moved_of_view hm₃ hc₅
  obtain ⟨rows, h₆, hrows⟩ := h.replay_dropViews mode hview
  have hb : ViewsLeft source x (Part.views.set rows c₅) :=
    ⟨hrows, fun w => by simpa [Part.views] using hview (.viewColumn w) rfl⟩
  obtain ⟨c₇, hc₇⟩ := h.exists_renamed_views hb
  have h₇ := h.replay_renameViews mode hb hc₇
  refine ⟨c₇, ?_, h.prepared_of_renamed hb (fun e ho => ?_) hc₇⟩
  · simp only [preparing, List.flatMap_cons, List.flatMap_nil, List.append_nil]
    rw [Catalog.replay?_append h₁, Catalog.replay?_append h₂, Catalog.replay?_append h₃,
      Catalog.replay?_append h₄, Catalog.replay?_append h₅, Catalog.replay?_append h₆, h₇]
  · rw [← h.mem_moved htc hm₃ hc₅ ho]
    cases e with
    | view | viewColumn => exact absurd rfl ho
    | _ => simp [Part.views]

end Settlement

end SchemaEvolution
