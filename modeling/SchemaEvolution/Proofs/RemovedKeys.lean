import SchemaEvolution.Proofs.RebuiltKeys
import SchemaEvolution.Proofs.WithoutRenames

/-!
# Former primary keys are removed

A table has one primary key, so a key that does not survive must be gone before another one is
declared.

**Theorem (`Migration.former_keys_removed`).** Without renames, let a table stay whose primary key
is not in the target, or has other columns there. If the key does not ride on its column, it is
dropped before every statement that can declare a primary key.

A key that rides on its column has no statements of its own, so nothing drops it
(`Migration.riding_key_stays`). Whether the key rides is decided by the source alone; its successor
may ride on a column or not.
-/

namespace SchemaEvolution

theorem Statement.rank_lt_rank_of_mayDeclareKey {s : Statement} (h : s.mayDeclareKey = true) :
    Phase.dropPrimaryKeys.rank < s.phase.rank := by
  cases s with
  | createPrimaryKey | addColumn | alterColumn | recreateColumn =>
    simp only [phase]
    decide
  | _ => cases h

/-- Statements remove a primary key of the source before others are declared, if it does not ride on
its column. If it does, they remove no primary key of its table. -/
structure KeyRemoved (source : Catalog) (k : PrimaryKey) (ss : List Statement) : Prop where
  dropped : .dropPrimaryKey k ∈ ss ↔ source.ridesOnColumn k = false
  kept : source.ridesOnColumn k = true → ∀ w, w.table = k.table → .dropPrimaryKey w ∉ ss
  first : ∀ s, s.mayDeclareKey = true → Statement.Precedes ss (.dropPrimaryKey k) s

namespace Settled

variable {x : Settled} {mode : Mode} {k : PrimaryKey}

theorem mem_source_of_dropPrimaryKey (h : .dropPrimaryKey k ∈ (x.plan mode).statements) :
    k ∈ x.sides.source.primaryKeys.rows ∧ x.sides.source.ridesOnColumn k = false := by
  obtain ⟨h, hr⟩ := PlanInput.mem_dropPrimaryKey.1 h
  refine ⟨?_, hr⟩
  rcases h with ⟨hd, -⟩ | ⟨a, ha, rfl⟩
  · exact (Collection.mem_dropped_iff.1 hd).1
  · obtain ⟨l, hl, r, -, -, he⟩ := mem_altered_primaryKeys.1 ha
    rwa [(Alteration.effective?_sides he).1]

/-- A key that does not survive is dropped by itself if it does not ride on its column. -/
theorem dropPrimaryKey_iff_of_gone (hk : k ∈ x.sides.source.primaryKeys.rows)
    (ht : x.sides.target.hasTable k.table = true)
    (hgone : ∀ w ∈ x.sides.target.primaryKeys.rows, w.table = k.table → w.columns ≠ k.columns) :
    .dropPrimaryKey k ∈ (x.plan mode).statements ↔ x.sides.source.ridesOnColumn k = false := by
  rw [PlanInput.mem_dropPrimaryKey]
  refine and_iff_right ?_
  cases hw : x.sides.target.primaryKeys.hasKey (Row.key k) with
  | false =>
    refine .inl ⟨Collection.mem_dropped_iff.2 ⟨hk, hw⟩, ?_⟩
    rw [← Bool.not_eq_true, Settlement.drops_iff, ht]
    exact fun h => Bool.noConfusion h.2
  | true =>
    obtain ⟨w, hw, e⟩ := Collection.hasKey_iff_exists.1 hw
    have hne : k.columns ≠ w.columns := (hgone w hw (Key.single.inj e)).symm
    obtain ⟨a, ha, hl, -⟩ := exists_altered_of_columns hk hw e.symm hne
    exact .inr ⟨a, ha, hl⟩

theorem keyRemoved (hk : k ∈ x.sides.source.primaryKeys.rows)
    (ht : x.sides.target.hasTable k.table = true)
    (hgone : ∀ w ∈ x.sides.target.primaryKeys.rows, w.table = k.table → w.columns ≠ k.columns) :
    KeyRemoved x.sides.source k (x.plan mode).statements where
  dropped := dropPrimaryKey_iff_of_gone hk ht hgone
  kept hr w hw hd := by
    obtain ⟨hws, hno⟩ := mem_source_of_dropPrimaryKey hd
    rw [Collection.eq_of_key_eq hws hk (congrArg Key.single hw), hr] at hno
    cases hno
  first _ hs := Statement.precedes_ordered (Statement.rank_lt_rank_of_mayDeclareKey hs)

end Settled

/-- **Former primary keys are removed**, except for those that ride on their column. -/
theorem Migration.former_keys_removed {σ : Type} (options : MigrationOptions)
    (source target : Catalog) (a : σ) :
    ∃ m, Returns (Migration.between (.never : Resolver (StateM σ)) options source target) a m a ∧
      ∀ k ∈ source.primaryKeys.rows, target.hasTable k.table = true →
        (∀ w ∈ target.primaryKeys.rows, w.table = k.table → w.columns ≠ k.columns) →
          KeyRemoved source k m.statements := by
  refine ⟨_, Migration.returns_between options (Sides.returns_settle_never ⟨source, target⟩ a), ?_⟩
  intro k hk ht hgone
  rw [Migration.statements_ofSettled]
  exact Settled.keyRemoved (x := ⟨⟨source, target⟩, {}⟩) hk ht hgone

/-- A table with a column that counts by itself, and a primary key. -/
def counter (key : List String) : Catalog where
  tables := ⟨[⟨"orders"⟩], List.nodup_singleton _⟩
  columns := ⟨[{ table := "orders", name := "id", type := "int", autoIncrement := true },
    { table := "orders", name := "code", type := "int" }], by decide⟩
  primaryKeys := ⟨[⟨"orders", "orders_pk", false, key⟩], List.nodup_singleton _⟩

theorem Migration.former_keys_removed_of_counter :
    (counter ["id"]).hasTable "orders" = true ∧ KeyRemoved (counter ["id", "code"])
      ⟨"orders", "orders_pk", false, ["id", "code"]⟩
      (Migration.ofSettled {} ⟨⟨counter ["id", "code"], counter ["id"]⟩, {}⟩).statements := by
  have ht : (counter ["id"]).hasTable "orders" = true := by decide
  have hx := Sides.returns_settle_never ⟨counter ["id", "code"], counter ["id"]⟩ ()
  obtain ⟨m, hm, hk⟩ :=
    Migration.former_keys_removed {} (counter ["id", "code"]) (counter ["id"]) ()
  rw [hm.unique (Migration.returns_between {} hx)] at hk
  exact ⟨ht, hk ⟨"orders", "orders_pk", false, ["id", "code"]⟩ (by decide) ht (by decide)⟩

/-- **A primary key that rides on its column stays** when the table gets another one, although both
catalogs are closed and have the column. -/
theorem Migration.riding_key_stays :
    (counter ["id"]).Closed ∧ (counter ["id", "code"]).Closed ∧
      ∃ m, Returns (Migration.between (.never : Resolver (StateM Unit)) {} (counter ["id"])
          (counter ["id", "code"])) () m () ∧
        m.statements = [.createPrimaryKey ⟨"orders", "orders_pk", false, ["id", "code"]⟩] := by
  have hs : (counter ["id"]).Closed := by decide
  have ht : (counter ["id", "code"]).Closed := by decide
  have hx := Sides.returns_settle_never ⟨counter ["id"], counter ["id", "code"]⟩ ()
  exact ⟨hs, ht, _, Migration.returns_between {} hx, by decide⟩

end SchemaEvolution
