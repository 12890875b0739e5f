import SchemaEvolution.Proofs.SettledNewNames

/-!
# Migrations that only rename

If the target is the source under new names, and the resolver knows these names, then **the
migration consists of the renames** (`Migration.only_renames`): no constraint is dropped and created
again because its default name has changed, however many renames go through it.

This takes names in which no underscore stands, old and new ones. Underscores join the parts of a
default name, and with others about **the default name of one index can be that of another one
after the renames** (`Migration.not_only_renames_of_joined`).
-/

namespace SchemaEvolution

/-! ## Statements of the renames -/

namespace NewNames

variable {r : NewNames} {source : Catalog} {rs : Renames}

theorem mem_statements {s : Statement} : s ∈ r.statements ↔
    (∃ old new, (old, new) ∈ r.tables ∧ s = .renameTable old new) ∨
      (∃ t old new, (t, old, new) ∈ r.columns ∧
        s = .renameColumn (r.tables.apply t) old new) ∨
      ∃ old new, (old, new) ∈ r.views ∧ s = .renameView old new := by
  simp only [statements, List.mem_append, List.mem_map, Prod.exists, or_assoc, eq_comm]

/-- **Nothing is renamed twice.** -/
theorem Fits.nodup_statements (h : r.Fits source) (hc : source.Owned) : r.statements.Nodup := by
  have hcolumns : r.columns.Nodup := by
    refine List.nodup_iff_count_le_one.2 fun p => ?_
    have hsub := List.nodup_iff_count_le_one.1
      ((h.columns p.1).old_nodup.of_map.of_map : (r.columns.filter (·.1 == p.1)).Nodup) p
    rwa [List.count_filter (by simp)] at hsub
  rw [statements, List.nodup_append, List.nodup_append]
  refine ⟨⟨?_, ?_, ?_⟩, ?_, ?_⟩
  · refine h.tables.old_nodup.of_map.map fun p q e => ?_
    exact Prod.ext (Statement.renameTable.inj e).1 (Statement.renameTable.inj e).2
  · refine hcolumns.map_on fun p hp q hq e => ?_
    obtain ⟨ht, hold, hnew⟩ := Statement.renameColumn.inj e
    exact Prod.ext (h.tables.apply_inj (h.hasTable hc hp) (h.hasTable hc hq) ht)
      (Prod.ext hold hnew)
  · intro s hs t ht e
    obtain ⟨_, -, rfl⟩ := List.mem_map.1 hs
    obtain ⟨_, -, rfl⟩ := List.mem_map.1 ht
    cases e
  · refine h.views.old_nodup.of_map.map fun p q e => ?_
    exact Prod.ext (Statement.renameView.inj e).1 (Statement.renameView.inj e).2
  · intro s hs t ht e
    obtain ⟨_, -, rfl⟩ := List.mem_map.1 ht
    rcases List.mem_append.1 hs with hs | hs
    · obtain ⟨_, -, rfl⟩ := List.mem_map.1 hs
      cases e
    · obtain ⟨_, -, rfl⟩ := List.mem_map.1 hs
      cases e

/-- **The renames of the run are the statements of the new names.** -/
theorem Made.mem_iff (h : r.Made source rs) (hr : r.Fits source) (hc : source.Owned)
    {s : Statement} :
    s ∈ rs.tables.map (fun q => Statement.renameTable q.old.name q.new.name) ++
        rs.columns.map (fun q => .renameColumn q.new.table q.old.name q.new.name) ++
          rs.views.map (fun q => .renameView q.old.name q.new.name) ↔ s ∈ r.statements := by
  rw [mem_statements, List.mem_append, List.mem_append, or_assoc, List.mem_map, List.mem_map,
    List.mem_map]
  refine or_congr ⟨?_, ?_⟩ (or_congr ⟨?_, ?_⟩ ⟨?_, ?_⟩)
  · rintro ⟨q, hq, rfl⟩
    obtain ⟨p, hp, e⟩ := List.mem_map.1 ((h.tables _).1 (List.mem_map_of_mem hq))
    obtain ⟨hold, hnew⟩ := Prod.mk.inj e
    rw [← Key.single.inj hold, ← Key.single.inj hnew]
    exact ⟨p.1, p.2, hp, rfl⟩
  · rintro ⟨old, new, hp, rfl⟩
    obtain ⟨q, hq, e⟩ := List.mem_map.1 ((h.tables _).2 (List.mem_map_of_mem hp))
    obtain ⟨hold, hnew⟩ := Prod.mk.inj e
    exact ⟨q, hq, congrArg₂ Statement.renameTable (Key.single.inj hold) (Key.single.inj hnew)⟩
  · rintro ⟨q, hq, rfl⟩
    obtain ⟨t, -, hk⟩ := (h.columns _).1 (List.mem_map_of_mem hq)
    obtain ⟨p, hp, e⟩ := List.mem_map.1 hk
    obtain ⟨hold, hnew⟩ := Prod.mk.inj e
    rw [← (Key.scoped.inj hold).2, ← (Key.scoped.inj hnew).1, ← (Key.scoped.inj hnew).2]
    exact ⟨t, p.1, p.2, mem_columnsOf.1 hp, rfl⟩
  · rintro ⟨t, old, new, hp, rfl⟩
    obtain ⟨q, hq, e⟩ := List.mem_map.1 ((h.columns _).2
      ⟨t, hr.hasTable hc hp, List.mem_map_of_mem (mem_columnsOf.2 hp)⟩)
    obtain ⟨hold, hnew⟩ := Prod.mk.inj e
    refine ⟨q, hq, ?_⟩
    rw [(Key.scoped.inj hold).2, (Key.scoped.inj hnew).1, (Key.scoped.inj hnew).2]
  · rintro ⟨q, hq, rfl⟩
    obtain ⟨p, hp, e⟩ := List.mem_map.1 ((h.views _).1 (List.mem_map_of_mem hq))
    obtain ⟨hold, hnew⟩ := Prod.mk.inj e
    rw [← Key.single.inj hold, ← Key.single.inj hnew]
    exact ⟨p.1, p.2, hp, rfl⟩
  · rintro ⟨old, new, hp, rfl⟩
    obtain ⟨q, hq, e⟩ := List.mem_map.1 ((h.views _).2 (List.mem_map_of_mem hp))
    obtain ⟨hold, hnew⟩ := Prod.mk.inj e
    exact ⟨q, hq, congrArg₂ Statement.renameView (Key.single.inj hold) (Key.single.inj hnew)⟩

end NewNames

/-- **A migration to the same schema under new names only renames.** -/
theorem Migration.only_renames {σ : Type} {resolver : Resolver (StateM σ)} {r : NewNames}
    {source target : Catalog} (options : MigrationOptions) (hc : source.Closed) (hv : source.Valid)
    (hd : source.DefaultNamed) (hr : r.Fits source) (hu : source.Unjoined r.relabelling)
    (ht : source.IsRedeclared r.relabelling target) (hk : resolver.Knows r) (a : σ) :
    ∃ m b, Returns (Migration.between resolver options source target) a m b ∧
      m.statements.Perm r.statements := by
  have hl : Propagate.Legible source r.relabelling :=
    ⟨Catalog.legible_foreignKeys hc hv hu hr.fresh hd, Catalog.legible_indexes hc hv hu hr.fresh hd⟩
  obtain ⟨x, b, hx, hsame, hmade⟩ := Sides.exists_returns_settle hk hr hc.toOwned hl ht a
  refine ⟨_, b, Migration.returns_between options hx, ?_⟩
  refine (List.perm_ext_iff_of_nodup (PlanInput.nodup_statements _)
    (hr.nodup_statements hc.toOwned)).2 fun s => ?_
  rw [PlanInput.mem_statements,
    Settled.scheduled_of_sameButKeyNames hsame, hmade.mem_iff hr hc.toOwned]

/-- Teams, each with the team that leads it, and a view of the leading ones. -/
def teams (table key lead view : String) : Catalog :=
  .ofEntitiesLoose [.table ⟨table⟩, .column { table, name := key, type := "int" },
    .column { table, name := lead, type := "int" }, .primaryKey (.implicit table [key]),
    .foreignKey (.implicit table [lead] table [key]),
    .index (.implicit table [.column lead] false),
    .view { name := view, definition := "select 1" }]

/-- Other names for all that there is about teams. -/
def teamNames : NewNames where
  tables := [("team", "squad")]
  columns := [("team", "id", "key"), ("team", "lead", "head")]
  views := [("leads", "heads")]

theorem Migration.only_renames_of_teams :
    (teams "team" "id" "lead" "leads").Closed ∧
      ∃ m b, Returns (Migration.between (teamNames.resolver : Resolver (StateM Unit)) {}
        (teams "team" "id" "lead" "leads") (teams "squad" "key" "head" "heads")) () m b ∧
          m.statements.Perm teamNames.statements := by
  have hc : (teams "team" "id" "lead" "leads").Closed := by decide
  have hv : (teams "team" "id" "lead" "leads").Valid := by decide
  have hd : (teams "team" "id" "lead" "leads").DefaultNamed := by decide
  have hr : teamNames.Fits (teams "team" "id" "lead" "leads") := by decide
  have hu : (teams "team" "id" "lead" "leads").Unjoined teamNames.relabelling := by decide
  have ht : (teams "team" "id" "lead" "leads").IsRedeclared teamNames.relabelling
      (teams "squad" "key" "head" "heads") := by decide
  exact ⟨hc, Migration.only_renames {} hc hv hd hr hu ht (hr.knows hc.toOwned) ()⟩

/-- A table with an index over two columns and one over a third. -/
def twoIndexes (table first last pairName singleName : String) : Catalog :=
  .ofEntitiesLoose [.table ⟨table⟩, .column { table, name := first, type := "int" },
    .column { table, name := "b", type := "int" }, .column { table, name := last, type := "int" },
    .index { table, name := pairName, parts := [.column first, .column "b"], isUnique := false },
    .index { table, name := singleName, parts := [.column last], isUnique := false }]

/-- Other names, one of which reads like two. -/
def joinedNames : NewNames where
  tables := [("t", "u")]
  columns := [("t", "a", "z"), ("t", "x", "a_b")]

/-- **An underscore in a new name can keep default names from being told apart**: the index over
`a_b` gets the name that the index over `a` and `b` had, so that both are dropped and created. -/
theorem Migration.not_only_renames_of_joined :
    let source := twoIndexes "t" "a" "x" "t_a_b_index" "t_x_index"
    let target := twoIndexes "u" "z" "a_b" "u_z_b_index" "u_a_b_index"
    source.Closed ∧ source.Valid ∧ source.DefaultNamed ∧ source.Unjoined .none ∧
      joinedNames.Fits source ∧ source.IsRedeclared joinedNames.relabelling target ∧
      (joinedNames.resolver : Resolver (StateM Unit)).Knows joinedNames ∧
      ∃ m, Returns (Migration.between joinedNames.resolver {} source target) () m () ∧
        ¬m.statements.Perm joinedNames.statements := by
  intro source target
  have hc : source.Closed := by decide
  have hr : joinedNames.Fits source := by decide
  have hx : Returns (Sides.settle (joinedNames.resolver : Resolver (StateM Unit))
      ⟨source, target⟩) ()
      ⟨⟨twoIndexes "u" "z" "a_b" "t_a_b_index" "t_x_index",
          twoIndexes "u" "z" "a_b" "u_z_b_index" "t_a_b_index"⟩,
        { tables := [⟨⟨"t"⟩, ⟨"u"⟩⟩]
          columns := [⟨{ table := "u", name := "a", type := "int" },
              { table := "u", name := "z", type := "int" }⟩,
            ⟨{ table := "u", name := "x", type := "int" },
              { table := "u", name := "a_b", type := "int" }⟩] }⟩ () := by decide +kernel
  refine ⟨hc, by decide, by decide, by decide, hr, by decide, hr.knows hc.toOwned, _,
    Migration.returns_between {} hx, ?_⟩
  decide

end SchemaEvolution
