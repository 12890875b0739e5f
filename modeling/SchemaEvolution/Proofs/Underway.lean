import SchemaEvolution.Proofs.NewNames

/-!
# While renames are under way

Tables are renamed first, then the columns of one table after the other. `Propagate.Underway` says
how far a run has come: which columns still have their old names, what the source looks like, and
that all names of the target are restored that can be.

**A table has its turn** (`Propagate.Underway.next`), and when the last one has had it, **all names
of the target are restored** (`Propagate.Underway.restored`).
-/

namespace SchemaEvolution

/-! ## Relabellings that agree -/

/-- The relabellings give the same names to all that a catalog has. -/
structure Relabelling.Agrees (σ ρ : Relabelling) (c : Catalog) : Prop where
  table : ∀ t, c.hasTable t = true → σ.table t = ρ.table t
  column : ∀ t, c.hasTable t = true → ∀ n, σ.column t n = ρ.column t n
  view : ∀ v, c.views.hasKey (.single v) = true → σ.view v = ρ.view v

namespace Relabelling

variable {σ ρ : Relabelling} {c d : Catalog}

theorem relabel_foreignKey_congr {k : ForeignKey} (ht : σ.table k.table = ρ.table k.table)
    (hu : σ.table k.target = ρ.table k.target) (hc : σ.column k.table = ρ.column k.table)
    (hd : σ.column k.target = ρ.column k.target) : relabel σ k = relabel ρ k := by
  simp only [relabel]
  rw [ht, hu, hc, hd]

theorem relabel_index_congr {i : Index} (ht : σ.table i.table = ρ.table i.table)
    (hc : σ.column i.table = ρ.column i.table) : relabel σ i = relabel ρ i := by
  simp only [relabel]
  rw [ht, hc]

/-- Relabellings that agree on an owned catalog lead to the same catalog. -/
theorem Agrees.isRelabelled (h : σ.Agrees ρ c) (hc : c.Owned) (hd : c.IsRelabelled σ d) :
    c.IsRelabelled ρ d where
  tables := hd.tables.trans <| List.map_congr_left fun x hx =>
    congrArg (fun name => { x with name }) (h.table x.name (Collection.hasKey_key hx))
  columns := hd.columns.trans <| List.map_congr_left fun x hx => by
    simp only [relabel]
    rw [h.table _ (hc.columns x hx), h.column _ (hc.columns x hx)]
  primaryKeys := hd.primaryKeys.trans <| List.map_congr_left fun x hx => by
    simp only [relabel]
    rw [h.table _ (hc.primaryKeys x hx), funext (h.column _ (hc.primaryKeys x hx))]
  foreignKeys := hd.foreignKeys.trans <| List.map_congr_left fun x hx =>
    relabel_foreignKey_congr (h.table _ (hc.foreignKeys x hx)) (h.table _ (hc.targets x hx))
      (funext (h.column _ (hc.foreignKeys x hx))) (funext (h.column _ (hc.targets x hx)))
  indexes := hd.indexes.trans <| List.map_congr_left fun x hx =>
    relabel_index_congr (h.table _ (hc.indexes x hx)) (funext (h.column _ (hc.indexes x hx)))
  checks := hd.checks.trans <| List.map_congr_left fun x hx =>
    congrArg (fun table => { x with table }) (h.table x.table (hc.checks x hx))
  views := hd.views.trans <| List.map_congr_left fun x hx =>
    congrArg (fun name => { x with name }) (h.view x.name (Collection.hasKey_key hx))
  viewColumns := hd.viewColumns.trans <| List.map_congr_left fun x hx =>
    congrArg (fun view => { x with view }) (h.view x.view (hc.viewColumns x hx))

end Relabelling

/-! ## Names on the way -/

namespace Propagate

theorem column_inTurn_of_not_mem {t n : String} : ∀ {groups : List (String × NameMap)},
    t ∉ groups.map Prod.fst → (inTurn groups).column t n = n
  | [], _ => rfl
  | (u, m) :: groups, h => by
    rw [List.map_cons, List.mem_cons, not_or] at h
    show (inTurn groups).column t ((Relabelling.ofColumns u m).column t n) = n
    rw [column_ofColumns_of_ne h.1, column_inTurn_of_not_mem h.2]

/-- The renames of tables are done, and the columns of some tables have yet to be renamed. -/
structure Waiting (source : Catalog) (ρ σ : Relabelling) (groups : List (String × NameMap)) :
    Prop where
  distinct : (groups.map Prod.fst).Nodup
  table : ∀ t, source.hasTable t = true → σ.table t = ρ.table t
  column : ∀ t, source.hasTable t = true → ∀ n,
    (σ.andThen (inTurn groups)).column t n = ρ.column t n
  waiting : ∀ t, source.hasTable t = true → ρ.table t ∈ groups.map Prod.fst →
    ∀ n, σ.column t n = n

namespace Waiting

variable {source : Catalog} {ρ σ : Relabelling} {groups : List (String × NameMap)}
  {table : String} {m : NameMap}

/-- Before its turn a table has all its old columns, and afterwards all its new ones. -/
theorem within (h : Waiting source ρ σ groups) : σ.Within ρ source := by
  refine ⟨.inr h.table, fun t ht => ?_⟩
  by_cases hmem : ρ.table t ∈ groups.map Prod.fst
  · exact .inl fun n _ => h.waiting t ht hmem n
  · refine .inr fun n _ => ?_
    rw [← h.column t ht n]
    show _ = (inTurn groups).column (σ.table t) (σ.column t n)
    rw [column_inTurn_of_not_mem (h.table t ht ▸ hmem)]

theorem next (h : Waiting source ρ σ ((table, m) :: groups)) :
    Waiting source ρ (σ.andThen (.ofColumns table m)) groups where
  distinct := (List.nodup_cons.1 h.distinct).2
  table := h.table
  column := h.column
  waiting t ht hmem n := by
    have hne : σ.table t ≠ table := fun e =>
      (List.nodup_cons.1 h.distinct).1 (by rw [← e, h.table t ht]; exact hmem)
    show (Relabelling.ofColumns table m).column (σ.table t) (σ.column t n) = n
    rw [column_ofColumns_of_ne hne, h.waiting t ht (List.mem_cons_of_mem _ hmem) n]

end Waiting

/-- The names of both sides while the columns of some tables have yet to be renamed. -/
structure Underway (source target : Catalog) (ρ σ : Relabelling)
    (groups : List (String × NameMap)) (s : Sides) : Prop where
  waiting : Waiting source ρ σ groups
  relabelled : source.IsRelabelled σ s.source
  foreignKeys : source.foreignKeys.Restored s.target.foreignKeys ρ σ
  indexes : source.indexes.Restored s.target.indexes ρ σ
  others : s.target =
    { target with foreignKeys := s.target.foreignKeys, indexes := s.target.indexes }

/-- The foreign keys and indexes of a catalog are told apart by their default names, however much
has been renamed. -/
structure Legible (source : Catalog) (ρ : Relabelling) : Prop where
  foreignKeys : source.foreignKeys.Legible ρ (·.Within ρ source)
  indexes : source.indexes.Legible ρ (·.Within ρ source)

namespace Underway

variable {source target d : Catalog} {ρ σ : Relabelling} {groups : List (String × NameMap)}
  {s : Sides} {table : String} {m : NameMap} {touched : Catalog.Retargeted}

/-- **While columns are renamed** the names of the target are restored. -/
theorem next (h : Underway source target ρ σ ((table, m) :: groups) s)
    (hl : Legible source ρ) (hd : s.source.IsRelabelled (.ofColumns table m) d)
    (ht : s.source.Touches (.ofColumns table m) touched) :
    Underway source target ρ (σ.andThen (.ofColumns table m)) groups
      ⟨d, s.target.keepNames touched⟩ where
  waiting := h.waiting.next
  relabelled := h.relabelled.trans hd
  foreignKeys := h.foreignKeys.step hl.foreignKeys h.waiting.next.within h.relabelled.foreignKeys
    ht.foreignKeys
  indexes := h.indexes.step hl.indexes h.waiting.next.within h.relabelled.indexes ht.indexes
  others := congrArg (fun c : Catalog => c.keepNames touched) h.others

/-- **When all columns are renamed** all names of the target are restored. -/
theorem restored (h : Underway source target ρ σ [] s) (hc : source.Owned) :
    s.target.foreignKeys.rows = source.foreignKeys.rows.map (relabel ρ) ∧
      s.target.indexes.rows = source.indexes.rows.map (relabel ρ) := by
  have hcolumn {t : String} (ht : source.hasTable t = true) : σ.column t = ρ.column t :=
    funext (h.waiting.column t ht)
  constructor
  · refine h.foreignKeys.rows_eq fun k hk => Relabelling.relabel_foreignKey_congr ?_ ?_ ?_ ?_
    · exact h.waiting.table _ (hc.foreignKeys k hk)
    · exact h.waiting.table _ (hc.targets k hk)
    · exact hcolumn (hc.foreignKeys k hk)
    · exact hcolumn (hc.targets k hk)
  · refine h.indexes.rows_eq fun i hi => Relabelling.relabel_index_congr ?_ ?_
    · exact h.waiting.table _ (hc.indexes i hi)
    · exact hcolumn (hc.indexes i hi)

end Underway

end Propagate

end SchemaEvolution
