import SchemaEvolution.Proofs.Planning

/-!
# Foreign keys are released before tables are dropped

The server does not drop a table that a foreign key of another table refers to.

**Theorem (`Migration.foreign_keys_released`).** In a migration between owned catalogs, every
foreign key of the source that refers to a dropped table from another table is dropped by itself,
before any table is dropped or renamed. A dropped table takes its own foreign keys with it, except
those that refer to another dropped table. Dropped are the tables that the source has after its
renames and the target has not (`Migration.mem_dropTable`).

The referring table may be dropped, kept or renamed. If it is dropped, so is the key. If it stays,
the key cannot: the target is owned, so a key under the same name refers to another table there, and
no rule takes that for redundant.
-/

namespace SchemaEvolution

namespace Settled

variable {x : Settled} {mode : Mode} {k : ForeignKey}

theorem releases_of_drops_target (ht : x.sides.target.Owned)
    (hk : k ∈ x.sides.source.foreignKeys.rows) (hne : k.target ≠ k.table)
    (hd : (x.plan mode).drops k.target = true) : (x.plan mode).Releases k := by
  by_cases hkey : x.sides.target.foreignKeys.hasKey (Row.key k) = true
  · obtain ⟨w, hw, e⟩ := Collection.hasKey_iff_exists.1 hkey
    have hne : k.target ≠ w.target := by
      intro e
      have hno := (Settlement.drops_iff.1 hd).2
      rw [e, ht.targets w hw] at hno
      cases hno
    exact .inr (.inl (exists_altered_of_target hk hw e.symm hne))
  · rw [Bool.not_eq_true] at hkey
    exact .inl ⟨Collection.mem_dropped_iff.2 ⟨hk, hkey⟩, .inr ⟨hne, hd⟩⟩

theorem releases_iff_of_drops_owner (ht : x.sides.target.Owned)
    (hk : k ∈ x.sides.source.foreignKeys.rows) (hd : (x.plan mode).drops k.table = true) :
    (x.plan mode).Releases k ↔ k.target ≠ k.table ∧ (x.plan mode).drops k.target = true := by
  constructor
  · intro h
    rcases h with ⟨-, hno | hyes⟩ | ⟨a, ha, rfl⟩ | hr
    · cases hno.symm.trans hd
    · exact hyes
    · -- An altered key has its table on both sides.
      obtain ⟨l, -, r, hr, hk, he⟩ := mem_altered_foreignKeys.1 ha
      have hno := (Settlement.drops_iff.1 hd).2
      rw [(Alteration.effective?_sides he).1, (Key.scoped.inj hk).1, ht.foreignKeys r hr] at hno
      cases hno
    · cases (not_drops_of_rebuilds hr).symm.trans hd
  · intro h
    obtain ⟨hne, hdt⟩ := h
    exact releases_of_drops_target ht hk hne hdt

end Settled

namespace Settlement

variable {source target middle : Catalog} {x : Settled} {mode : Mode} {k : ForeignKey}

theorem released_of_dropTable (h : Settlement source target x middle) (hs : source.Owned)
    (ht : target.Owned) (hk : k ∈ source.foreignKeys.rows) (hne : k.table ≠ k.target)
    (hd : .dropTable k.target ∈ (x.plan mode).statements) :
    .dropConstraint k.table k.name .foreignKey ∈ (x.plan mode).statements := by
  rw [PlanInput.mem_dropTable] at hd
  rw [h.mem_dropForeignKey hs hk]
  have hsame := (h.relabelled_of_drops hd).2
  refine Settled.releases_of_drops_target (h.kept.owned ht)
    (h.renamed.foreignKeys ▸ List.mem_map_of_mem hk) (fun e => ?_)
    ((congrArg (x.plan mode).drops hsame).trans hd)
  exact hne (h.relabelled_inj (hs.targets k hk) (hs.foreignKeys k hk) e).symm

theorem released_iff_of_dropped_owner (h : Settlement source target x middle) (hs : source.Owned)
    (ht : target.Owned) (hk : k ∈ source.foreignKeys.rows)
    (hd : .dropTable k.table ∈ (x.plan mode).statements) :
    .dropConstraint k.table k.name .foreignKey ∈ (x.plan mode).statements ↔
      k.target ≠ k.table ∧ .dropTable k.target ∈ (x.plan mode).statements := by
  rw [PlanInput.mem_dropTable] at hd ⊢
  rw [h.mem_dropForeignKey hs hk, Settled.releases_iff_of_drops_owner (h.kept.owned ht)
    (h.renamed.foreignKeys ▸ List.mem_map_of_mem hk)
    ((h.drops_relabelled (hs.foreignKeys k hk)).trans hd)]
  refine and_congr (not_congr ⟨fun e => ?_, fun e => ?_⟩) ?_
  · exact h.relabelled_inj (hs.targets k hk) (hs.foreignKeys k hk) e
  · exact congrArg x.renames.relabelling.table e
  · rw [show (relabel x.renames.relabelling k).target = x.renames.relabelling.table k.target
      from rfl, h.drops_relabelled (hs.targets k hk)]

end Settlement

theorem Migration.mem_dropTable {σ : Type} {r : Resolver (StateM σ)} {source target : Catalog}
    {a b : σ} {x : Settled} (h : Returns (Sides.settle r ⟨source, target⟩) a x b)
    (options : MigrationOptions) {t : String} :
    .dropTable t ∈ (Migration.ofSettled options x).statements ↔
      x.sides.source.hasTable t = true ∧ target.hasTable t = false := by
  obtain ⟨middle, hm⟩ := exists_settlement h
  rw [Migration.statements_ofSettled, PlanInput.mem_dropTable, Settlement.drops_iff,
    hm.kept.hasTable]

/-- **Foreign keys are released before tables are dropped.** -/
theorem Migration.foreign_keys_released {σ : Type} {r : Resolver (StateM σ)}
    {options : MigrationOptions} {source target : Catalog} {a b : σ} {m : Migration}
    (hs : source.Owned) (ht : target.Owned)
    (h : Returns (Migration.between r options source target) a m b) :
    (∀ t, .dropTable t ∈ m.statements →
      ∀ k ∈ source.foreignKeys.rows, k.table ≠ t → k.target = t →
        .dropConstraint k.table k.name .foreignKey ∈ m.statements ∧
          Statement.Precedes m.statements (.dropConstraint k.table k.name .foreignKey)
            (.dropTable t) ∧
          ∀ old new, Statement.Precedes m.statements (.dropConstraint k.table k.name .foreignKey)
            (.renameTable old new)) ∧
      ∀ k ∈ source.foreignKeys.rows, .dropTable k.table ∈ m.statements →
        (.dropConstraint k.table k.name .foreignKey ∈ m.statements ↔
          k.target ≠ k.table ∧ .dropTable k.target ∈ m.statements) := by
  obtain ⟨x, hx, rfl⟩ := Migration.returns_between_iff.1 h
  obtain ⟨middle, hm⟩ := exists_settlement hx
  rw [Migration.statements_ofSettled]
  constructor
  · rintro t hd k hk hne rfl
    refine ⟨hm.released_of_dropTable hs ht hk hne hd, ?_, fun old new => ?_⟩
    · refine Statement.precedes_ordered ?_
      exact (by decide : Phase.dropForeignKeys.rank < Phase.dropTables.rank)
    · refine Statement.precedes_ordered ?_
      exact (by decide : Phase.dropForeignKeys.rank < Phase.renameTables.rank)
  · intro k hk hd
    exact hm.released_iff_of_dropped_owner hs ht hk hd

/-- A table that refers to its parent. -/
def family : Catalog where
  tables := ⟨[⟨"parent"⟩, ⟨"child"⟩], by decide⟩
  foreignKeys := ⟨[⟨"child", "parent_fk", true, [], "parent", [], .noAction, .noAction⟩], by decide⟩

/-- The same table, which has lost its parent. -/
def orphan : Catalog where
  tables := ⟨[⟨"child"⟩], by decide⟩

theorem Migration.foreign_keys_released_of_orphan :
    family.Owned ∧ orphan.Owned ∧
      Returns (Migration.between (.never : Resolver (StateM Unit)) {} family orphan) ()
        (.ofSettled {} ⟨⟨family, orphan⟩, {}⟩) () ∧
      .dropTable "parent" ∈ (Migration.ofSettled {} ⟨⟨family, orphan⟩, {}⟩).statements ∧
      .dropConstraint "child" "parent_fk" .foreignKey ∈
        (Migration.ofSettled {} ⟨⟨family, orphan⟩, {}⟩).statements ∧
      Statement.Precedes (Migration.ofSettled {} ⟨⟨family, orphan⟩, {}⟩).statements
        (.dropConstraint "child" "parent_fk" .foreignKey) (.dropTable "parent") := by
  have hf : family.Owned := by constructor <;> decide
  have ho : orphan.Owned := by constructor <;> decide
  have hx : Returns (Sides.settle (.never : Resolver (StateM Unit)) ⟨family, orphan⟩) ()
      ⟨⟨family, orphan⟩, {}⟩ () := by decide +kernel
  have h := Migration.returns_between {} hx
  have hd : .dropTable "parent" ∈ (Migration.ofSettled {} ⟨⟨family, orphan⟩, {}⟩).statements :=
    (Migration.mem_dropTable hx {}).2 ⟨by decide, by decide⟩
  obtain ⟨hmem, hprecedes, -⟩ := (Migration.foreign_keys_released hf ho h).1 "parent" hd
    ⟨"child", "parent_fk", true, [], "parent", [], .noAction, .noAction⟩ (by decide) (by decide) rfl
  exact ⟨hf, ho, h, hd, hmem, hprecedes⟩

end SchemaEvolution
