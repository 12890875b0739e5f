import SchemaEvolution.Proofs.Replay.Finished

/-!
# Migrations reach their target

**Theorem (`Migration.replay_reaches_target`).** Let both catalogs be closed, in either mode and
with any resolver. If a migration is planned between them, carrying out its statements on the
source succeeds and leads to the target, except for deltas that the mode takes for redundant.

There is one proviso. A primary key of one column that counts by itself rides on the clause of the
column, and its statements are not about keys at all. So no table that both catalogs have may have
such a key on either side (`Renames.KeysStand`). Created and dropped tables may.

The target is the one that is left when renames are settled: it may have taken over names of indexes
and foreign keys from the source.
-/

namespace SchemaEvolution

/-- No primary key rides on its column in a table that both catalogs have, under the same name or
renamed. -/
structure Renames.KeysStand (r : Renames) (source target : Catalog) : Prop where
  old : ∀ k ∈ source.primaryKeys.rows, target.hasTable (r.relabelling.table k.table) = true →
    source.ridesOnColumn k = false
  new : ∀ k ∈ target.primaryKeys.rows, ∀ t ∈ source.tables.rows,
    r.relabelling.table t.name = k.table → target.ridesOnColumn k = false

namespace Catalog

variable {c d : Catalog} {ρ : Relabelling} {k : PrimaryKey}

/-- Renames do not make a primary key ride on its column if its columns exist. -/
theorem IsRelabelled.ridesOnColumn (h : IsRelabelled ρ c d)
    (hk : ∀ n ∈ k.columns, c.hasColumn k.table n = true)
    (hr : d.ridesOnColumn (relabel ρ k) = true) : c.ridesOnColumn k = true := by
  obtain ⟨m, hm, x, hx, hxk, ha⟩ := ridesOnColumn_eq_true_iff.1 hr
  obtain ⟨n, hn, rfl⟩ : ∃ n, k.columns = [n] ∧ ρ.column k.table n = m := by
    obtain ⟨n, hn, e⟩ := List.map_eq_singleton_iff.1 hm
    exact ⟨n, hn, e⟩
  rw [h.columns] at hx
  obtain ⟨y, hy, rfl⟩ := List.mem_map.1 hx
  obtain ⟨z, hz, hzk⟩ := Collection.hasKey_iff_exists.1 (hk n (by simp [hn]))
  have hyz : y = z := by
    refine eq_of_relabelled_key h.columns hy hz ?_
    rw [hxk, key_relabel, hzk]
    rfl
  exact ridesOnColumn_eq_true_iff.2 ⟨n, hn, y, hy, hyz ▸ hzk, ha⟩

end Catalog

namespace Settlement

variable {source target middle : Catalog} {x : Settled}

theorem keysStand (h : Settlement source target x middle) (hs : source.Closed)
    (hk : x.renames.KeysStand source target) : x.KeysStand where
  source l hl ht := by
    rw [h.renamed.primaryKeys] at hl
    obtain ⟨k, hks, rfl⟩ := List.mem_map.1 hl
    rw [h.kept.hasTable] at ht
    by_contra hr
    rw [Bool.not_eq_false] at hr
    have hrides := h.renamed.ridesOnColumn (hs.primaryKey_columns k hks) hr
    cases (hk.old k hks ht).symm.trans hrides
  target k hkt ht := by
    rw [h.kept.primaryKeys] at hkt
    obtain ⟨y, hy, e⟩ := Collection.hasKey_iff_exists.1 ht
    rw [h.renamed.tables] at hy
    obtain ⟨t, hts, rfl⟩ := List.mem_map.1 hy
    rw [← Bool.not_eq_true, Catalog.ridesOnColumn_eq_true_iff, h.kept.columns,
      ← Catalog.ridesOnColumn_eq_true_iff, Bool.not_eq_true]
    exact hk.new k hkt t hts (Key.single.inj e)

end Settlement

theorem Phase.all_eq : all = Settlement.preparing ++ Prepared.finishing :=
  rfl

/-- **The first phases and the last ones** lead to the target. -/
theorem Settlement.exists_reached {source target middle : Catalog} {x : Settled}
    (h : Settlement source target x middle) (hs : source.Closed) (ht : target.Closed)
    (hk : x.renames.KeysStand source target) (mode : Mode) :
    ∃ c, source.replay? (x.plan mode).statements = some c ∧ Reached x mode c := by
  obtain ⟨c, hc, hprep⟩ := h.exists_prepared hs.toOwned ht mode
  obtain ⟨d, hd, hreach⟩ := hprep.exists_reached (h.renamed.owned hs.toOwned)
    (h.kept.owned ht.toOwned) (h.keysStand hs hk)
  refine ⟨d, ?_, hreach⟩
  rw [PlanInput.statements_eq, Phase.all_eq, List.flatMap_append, Catalog.replay?_append hc, hd]

/-- **Migrations reach their target.** -/
theorem Migration.replay_reaches_target {σ : Type} {r : Resolver (StateM σ)}
    {options : MigrationOptions} {source target : Catalog} {a b : σ} {m : Migration}
    (hs : source.Closed) (ht : target.Closed)
    (h : Returns (Migration.between r options source target) a m b) :
    ∃ x, Returns (Sides.settle r ⟨source, target⟩) a x b ∧ Migration.ofSettled options x = m ∧
      target.SameButNames x.sides.target ∧ (x.renames.KeysStand source target →
        ∃ c, source.replay? m.statements = some c ∧ Reached x options.mode c) := by
  obtain ⟨x, hx, rfl⟩ := Migration.returns_between_iff.1 h
  obtain ⟨middle, hm⟩ := exists_settlement hx
  refine ⟨x, hx, rfl, hm.kept, fun hk => ?_⟩
  rw [Migration.statements_ofSettled]
  exact hm.exists_reached hs ht hk options.mode

/-- A table whose rows refer to other rows of it. -/
def chain (table type : String) : Catalog where
  tables := ⟨[⟨table⟩], List.nodup_singleton _⟩
  columns := ⟨[{ table, name := "id", type }, { table, name := "next", type }], by simp [Row.key]⟩
  primaryKeys := ⟨[⟨table, "chain_pk", false, ["id"]⟩], List.nodup_singleton _⟩
  foreignKeys := ⟨[⟨table, "next_fk", true, ["next"], table, ["id"], .noAction, .noAction⟩],
    List.nodup_singleton _⟩

theorem closed_chain (table type : String) : (chain table type).Closed where
  toOwned := by
    constructor <;> simp [chain, Catalog.hasTable, Collection.empty, Collection.hasKey_iff, Row.key]
  primaryKey_columns := by simp [chain, Catalog.hasColumn, Collection.hasKey_iff, Row.key]
  foreignKey_columns := by simp [chain, Catalog.hasColumn, Collection.hasKey_iff, Row.key]
  target_columns := by simp [chain, Catalog.hasColumn, Collection.hasKey_iff, Row.key]
  index_columns := by simp [chain, Collection.empty]

/-- The settled catalogs of a table that is renamed, with columns of another type. -/
def renamedChain : Settled where
  sides := ⟨chain "entries" "int", chain "entries" "bigint"⟩
  renames := { tables := [⟨⟨"items"⟩, ⟨"entries"⟩⟩] }

theorem returns_settle_renamedChain :
    Returns (Sides.settle (RenameTable.resolver ⟨[("items", "entries")]⟩)
      ⟨chain "items" "int", chain "entries" "bigint"⟩) () renamedChain () := by decide +kernel

theorem keysStand_renamedChain :
    renamedChain.renames.KeysStand (chain "items" "int") (chain "entries" "bigint") := by
  constructor <;> decide

theorem Migration.replay_reaches_target_of_chain :
    (chain "items" "int").Closed ∧ (chain "entries" "bigint").Closed ∧
      Returns (Migration.between (RenameTable.resolver ⟨[("items", "entries")]⟩) {}
        (chain "items" "int") (chain "entries" "bigint")) () (.ofSettled {} renamedChain) () ∧
      renamedChain.renames.KeysStand (chain "items" "int") (chain "entries" "bigint") ∧
      ∃ c, (chain "items" "int").replay? (Migration.ofSettled {} renamedChain).statements = some c ∧
        Reached renamedChain .default c := by
  have hs := closed_chain "items" "int"
  have ht := closed_chain "entries" "bigint"
  have hx := returns_settle_renamedChain
  have h := Migration.returns_between {} hx
  have hk := keysStand_renamedChain
  refine ⟨hs, ht, h, hk, ?_⟩
  obtain ⟨y, hy, -, -, hreach⟩ := Migration.replay_reaches_target hs ht h
  rw [← hx.unique hy] at hreach
  exact hreach hk

end SchemaEvolution
