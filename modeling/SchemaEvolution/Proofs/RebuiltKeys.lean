import SchemaEvolution.Proofs.Planning

/-!
# Primary keys change under foreign keys

A foreign key rests on the primary key of the table that it refers to. The server does not drop a
primary key while a foreign key rests on it.

**Theorem (`Migration.referring_keys_rebuilt`).** In a migration from an owned catalog, where the
columns of a primary key change, every foreign key that refers to exactly its former columns is
dropped once, before any primary key is dropped. If the target still has a foreign key under its
name, that one is created once, after every statement that can declare a primary key.

The same foreign key may be dropped or altered for its own sake. It is then scheduled in several
ways, but always by the same statements, and repetitions are removed.
-/

namespace SchemaEvolution

namespace Statement

/-- Whether a statement can declare the primary key of an existing table. -/
def mayDeclareKey : Statement → Bool
  | .createPrimaryKey .. | .addColumn .. | .alterColumn .. | .recreateColumn .. => true
  | _ => false

theorem rank_lt_of_mayDeclareKey {s : Statement} (h : s.mayDeclareKey = true) :
    s.phase.rank < Phase.createForeignKeys.rank := by
  cases s with
  | createPrimaryKey | addColumn | alterColumn | recreateColumn =>
    simp only [phase]
    decide
  | _ => cases h

end Statement

/-- Statements drop a foreign key once and create its successor once, around all changes of primary
keys. The key `k` is from the source after renames. -/
structure RebuiltOnce (source : Catalog) (x : Settled) (ss : List Statement) (k : ForeignKey) :
    Prop where
  /-- It is dropped under the former name of its table, and not under its new name. -/
  dropped : ∃ l ∈ source.foreignKeys.rows, relabel x.renames.relabelling l = k ∧
    ss.count (.dropConstraint l.table k.name .foreignKey) = 1 ∧
      (k.table ≠ l.table → .dropConstraint k.table k.name .foreignKey ∉ ss) ∧
        ∀ p, Statement.Precedes ss (.dropConstraint l.table k.name .foreignKey) (.dropPrimaryKey p)
  /-- What the target has under its name is created. -/
  created : ∀ w ∈ x.sides.target.foreignKeys.rows, Row.key w = Row.key k →
    ss.count (.createForeignKey w) = 1 ∧
      ∀ s ∈ ss, s.mayDeclareKey = true → Statement.Precedes ss s (.createForeignKey w)
  /-- Nothing else is created under its name. -/
  created_only : ∀ w, Row.key w = Row.key k → .createForeignKey w ∈ ss →
    w ∈ x.sides.target.foreignKeys.rows

namespace Settled

variable {x : Settled} {mode : Mode} {k w : ForeignKey}

/-- **A foreign key on a changed primary key is rebuilt.** -/
theorem rebuilds_of_columns_ne {old new : PrimaryKey}
    (ho : old ∈ x.sides.source.primaryKeys.rows) (hn : new ∈ x.sides.target.primaryKeys.rows)
    (ht : old.table = new.table) (hne : old.columns ≠ new.columns)
    (hk : k ∈ x.sides.source.foreignKeys.rows) (hd : (x.plan mode).drops k.table = false)
    (hkt : k.target = old.table) (hkc : k.targetColumns.Perm old.columns) :
    (x.plan mode).Rebuilds k := by
  obtain ⟨a, ha, hl, hc⟩ : ∃ a ∈ (x.plan mode).alterations.primaryKeys,
      a.left = old ∧ a.change .columns = some ⟨old.columns, new.columns⟩ :=
    exists_altered_of_columns ho hn (congrArg Key.single ht) hne
  refine ⟨a, ha, _, hc, List.mem_filter.2 ⟨hk, ?_⟩⟩
  rw [hl, hkt, hd, List.isPerm_iff.2 hkc, beq_self_eq_true]
  rfl

theorem mem_target_of_createForeignKey (h : .createForeignKey w ∈ (x.plan mode).statements) :
    w ∈ x.sides.target.foreignKeys.rows := by
  rcases PlanInput.mem_createForeignKey.1 h with ⟨hc, -⟩ | ⟨a, ha, rfl⟩ | ⟨l, -, hw⟩
  · exact (Collection.mem_created_iff.1 hc).1
  · obtain ⟨l, -, r, hr, -, he⟩ := mem_altered_foreignKeys.1 ha
    rw [(Alteration.effective?_sides he).2]
    exact hr
  · exact (Collection.get?_eq_some_iff.1 hw).1

end Settled

namespace Settlement

variable {source target middle : Catalog} {x : Settled} {mode : Mode} {k : ForeignKey}

/-- No statement drops a foreign key of a renamed table under the new name of the table. -/
theorem not_dropForeignKey_renamed (h : Settlement source target x middle) (hs : source.Owned)
    {t n : String} (ht : source.hasTable t = true) (hne : x.renames.relabelling.table t ≠ t) :
    .dropConstraint (x.renames.relabelling.table t) n .foreignKey ∉ (x.plan mode).statements := by
  intro hd
  obtain ⟨k, hk, -, hkt, -⟩ := (h.mem_dropForeignKey_iff hs).1 hd
  have hown := hs.foreignKeys k hk
  rw [hkt, h.new_name_free ht hne] at hown
  cases hown

theorem rebuiltOnce (h : Settlement source target x middle) (hs : source.Owned)
    (hk : k ∈ x.sides.source.foreignKeys.rows) (hr : (x.plan mode).Rebuilds k) :
    RebuiltOnce source x (x.plan mode).statements k where
  dropped := by
    rw [h.renamed.foreignKeys] at hk
    obtain ⟨l, hl, rfl⟩ := List.mem_map.1 hk
    refine ⟨l, hl, rfl, ?_, ?_, ?_⟩
    · exact PlanInput.count_statements ((h.mem_dropForeignKey hs hl).2 (.inr (.inr hr)))
    · exact h.not_dropForeignKey_renamed hs (hs.foreignKeys l hl)
    · intro p
      refine Statement.precedes_ordered ?_
      exact (by decide : Phase.dropForeignKeys.rank < Phase.dropPrimaryKeys.rank)
  created := by
    intro w hw e
    constructor
    · refine PlanInput.count_statements (PlanInput.mem_createForeignKey.2 (.inr (.inr ⟨k, hr, ?_⟩)))
      exact Collection.get?_eq_some_iff.2 ⟨hw, e⟩
    · intro s _ hd
      exact Statement.precedes_ordered (Statement.rank_lt_of_mayDeclareKey hd)
  created_only _ _ hc := Settled.mem_target_of_createForeignKey hc

end Settlement

/-- **A primary key whose columns change rebuilds the foreign keys on it.** -/
theorem Migration.referring_keys_rebuilt {σ : Type} {r : Resolver (StateM σ)}
    {options : MigrationOptions} {source target : Catalog} {a b : σ} {m : Migration}
    (hs : source.Owned) (h : Returns (Migration.between r options source target) a m b) :
    ∃ x, Returns (Sides.settle r ⟨source, target⟩) a x b ∧ Migration.ofSettled options x = m ∧
      ∀ old ∈ x.sides.source.primaryKeys.rows, ∀ new ∈ x.sides.target.primaryKeys.rows,
        old.table = new.table → old.columns ≠ new.columns →
          ∀ k ∈ x.sides.source.foreignKeys.rows, .dropTable k.table ∉ m.statements →
            k.target = old.table → k.targetColumns.Perm old.columns →
              RebuiltOnce source x m.statements k := by
  obtain ⟨x, hx, rfl⟩ := Migration.returns_between_iff.1 h
  obtain ⟨middle, hm⟩ := exists_settlement hx
  refine ⟨x, hx, rfl, ?_⟩
  rw [Migration.statements_ofSettled]
  intro old ho new hn ht hne k hk hd hkt hkc
  rw [PlanInput.mem_dropTable, Bool.not_eq_true] at hd
  exact hm.rebuiltOnce hs hk (Settled.rebuilds_of_columns_ne ho hn ht hne hk hd hkt hkc)

/-- A table with a primary key, and a foreign key that rests on it. -/
def order (key : String) : Catalog where
  tables := ⟨[⟨"orders"⟩, ⟨"items"⟩], by decide⟩
  primaryKeys := ⟨[⟨"orders", "orders_pk", false, [key]⟩], List.nodup_singleton _⟩
  foreignKeys := ⟨[⟨"items", "order_fk", true, ["order"], "orders", [key], .noAction, .noAction⟩],
    List.nodup_singleton _⟩

theorem Migration.referring_keys_rebuilt_of_order :
    (order "id").Owned ∧
      Returns
        (Migration.between (.never : Resolver (StateM Unit)) {} (order "id") (order "code")) ()
        (.ofSettled {} ⟨⟨order "id", order "code"⟩, {}⟩) () ∧
      RebuiltOnce (order "id") ⟨⟨order "id", order "code"⟩, {}⟩
        (Migration.ofSettled {} ⟨⟨order "id", order "code"⟩, {}⟩).statements
        ⟨"items", "order_fk", true, ["order"], "orders", ["id"], .noAction, .noAction⟩ := by
  have hs : (order "id").Owned := by constructor <;> decide
  have hx : Returns (Sides.settle (.never : Resolver (StateM Unit)) ⟨order "id", order "code"⟩) ()
      ⟨⟨order "id", order "code"⟩, {}⟩ () := by decide +kernel
  have h := Migration.returns_between {} hx
  refine ⟨hs, h, ?_⟩
  obtain ⟨y, hy, -, hk⟩ := Migration.referring_keys_rebuilt hs h
  rw [← hx.unique hy] at hk
  refine hk ⟨"orders", "orders_pk", false, ["id"]⟩ (by decide)
    ⟨"orders", "orders_pk", false, ["code"]⟩ (by decide) rfl (by decide) _ (by decide) ?_ rfl
    (.refl _)
  rw [Migration.statements_ofSettled, PlanInput.mem_dropTable]
  decide

end SchemaEvolution
