import SchemaEvolution.Proofs.ReachedTarget
import SchemaEvolution.Proofs.Replay.Mirrors
import SchemaEvolution.Proofs.Replay.Renames
import SchemaEvolution.Proofs.WithoutRenames

/-!
# Migrations one after the other

Along a history, each migration starts from where the one before has left the database.

**The name that a constraint has.** When a table or column is renamed, its foreign keys and indexes
keep their names in the database, and settling the renames gives the target these names
(`Settled.sides`). That is the catalog that the database mirrors afterwards, and the target that was
declared is not.

**Theorem (`History.executes`).** If each migration of a history is planned from what the one before
has left of its target, its statements can be carried out one migration after the other
(`Migration.histories_compose` for two migrations). There is the same proviso as for one migration:
no primary key rides on its column.

A migration that is planned from the target as it was declared may look for a constraint under a
name that the database does not know (`Migration.declared_name_unknown`).
-/

namespace SchemaEvolution

namespace Catalog

variable {c d : Catalog} {ss rs : List Statement}

/-- No primary key rides on its column. -/
def NoRidingKeys (c : Catalog) : Prop :=
  ∀ k ∈ c.primaryKeys.rows, c.ridesOnColumn k = false

instance (c : Catalog) : Decidable c.NoRidingKeys :=
  inferInstanceAs (Decidable (∀ k ∈ c.primaryKeys.rows, c.ridesOnColumn k = false))

theorem NoRidingKeys.keysStand (hc : c.NoRidingKeys) (hd : d.NoRidingKeys) (r : Renames) :
    r.KeysStand c d where
  old k hk _ := hc k hk
  new k hk _ _ _ := hd k hk

theorem SameButNames.noRidingKeys (h : c.SameButNames d) (hc : c.NoRidingKeys) :
    d.NoRidingKeys := by
  intro k hk
  rw [← Bool.not_eq_true, ridesOnColumn_eq_true_iff, h.columns, ← ridesOnColumn_eq_true_iff,
    Bool.not_eq_true]
  exact hc k (h.primaryKeys ▸ hk)

theorem Owned.mirrors (h : c.Owned) : c.Mirrors c :=
  ⟨.refl c, h.viewColumns⟩

theorem executeAll?_append (h : c.executeAll? ss = some d) :
    c.executeAll? (ss ++ rs) = d.executeAll? rs := by
  rw [executeAll?, List.foldlM_append]
  show (c.executeAll? ss).bind _ = _
  rw [h]
  rfl

end Catalog

theorem Reached.sameKeys {x : Settled} {mode : Mode} {c : Catalog} (h : Reached x mode c) :
    c.SameKeys x.sides.target where
  tables k := by
    rw [Bool.eq_iff_iff, Collection.hasKey_iff_exists, Collection.hasKey_iff_exists]
    exact exists_congr fun t => and_congr_left fun _ => h.tables t
  columns := h.columns.keys
  primaryKeys := h.primaryKeys.keys
  foreignKeys := h.foreignKeys.keys
  indexes := h.indexes.keys
  checks := h.checks.keys
  views := h.views.keys

/-- **One migration** leads from a mirror of its source to a mirror of its target. -/
theorem Settlement.executes {source target middle c : Catalog} {x : Settled}
    (h : Settlement source target x middle) (hs : source.Closed) (ht : target.Closed)
    (hk : x.renames.KeysStand source target) (mode : Mode) (hc : c.Mirrors source) :
    ∃ d, c.executeAll? (x.plan mode).statements = some d ∧ d.Mirrors x.sides.target := by
  obtain ⟨e, he, hreach⟩ := h.exists_reached hs ht hk mode
  obtain ⟨d, hd, hmirror⟩ := hc.executeAll? he
  exact ⟨d, hd, hmirror.keys.trans hreach.sameKeys, hmirror.owned⟩

/-- Migrations one after the other, each planned from what the one before has left of its target,
and all their statements. -/
inductive History : Catalog → List Statement → Catalog → Prop
  | done (c : Catalog) : History c [] c
  | step {σ : Type} {r : Resolver (StateM σ)} {mode : Mode} {source target last : Catalog}
      {a b : σ} {x : Settled} {ss : List Statement} (closed : target.Closed)
      (stand : target.NoRidingKeys) (settled : Returns (Sides.settle r ⟨source, target⟩) a x b)
      (rest : History x.sides.target ss last) : History source ((x.plan mode).statements ++ ss) last

/-- **The migrations of a history can be carried out**, one after the other. -/
theorem History.executes {source last c : Catalog} {ss : List Statement}
    (h : History source ss last) (hs : source.Closed) (hk : source.NoRidingKeys)
    (hc : c.Mirrors source) : ∃ d, c.executeAll? ss = some d ∧ d.Mirrors last := by
  induction h generalizing c with
  | done => exact ⟨c, rfl, hc⟩
  | @step _ _ mode _ _ _ _ _ x _ closed stand settled _ ih =>
    obtain ⟨middle, hm⟩ := exists_settlement settled
    obtain ⟨d, hd, hmirror⟩ := hm.executes hs closed (hk.keysStand stand x.renames) mode hc
    obtain ⟨e, he, hlast⟩ := ih (hm.kept.closed closed) (hm.kept.noRidingKeys stand) hmirror
    exact ⟨e, by rw [Catalog.executeAll?_append hd, he], hlast⟩

/-- **Two migrations compose** if the second one is planned from what the first one has left of its
target. Carrying them out (`Catalog.executeAll?`) is as strict as `Catalog.replay?`. The only
difference between the two is in the columns of dropped views, which go with the view here. -/
theorem Migration.histories_compose {σ τ : Type} {r₁ : Resolver (StateM σ)}
    {r₂ : Resolver (StateM τ)} {o₁ o₂ : MigrationOptions} {first second third : Catalog}
    {a₁ b₁ : σ} {a₂ b₂ : τ} {m₁ m₂ : Migration}
    (c₁ : first.Closed) (c₂ : second.Closed) (c₃ : third.Closed)
    (k₁ : first.NoRidingKeys) (k₂ : second.NoRidingKeys) (k₃ : third.NoRidingKeys)
    (h₁ : Returns (Migration.between r₁ o₁ first second) a₁ m₁ b₁) :
    ∃ x, Returns (Sides.settle r₁ ⟨first, second⟩) a₁ x b₁ ∧ Migration.ofSettled o₁ x = m₁ ∧
      second.SameButNames x.sides.target ∧
        (Returns (Migration.between r₂ o₂ x.sides.target third) a₂ m₂ b₂ →
          ∃ d, first.executeAll? (m₁.statements ++ m₂.statements) = some d) := by
  obtain ⟨x, hx, rfl⟩ := Migration.returns_between_iff.1 h₁
  obtain ⟨middle, hm⟩ := exists_settlement hx
  refine ⟨x, hx, rfl, hm.kept, fun h₂ => ?_⟩
  obtain ⟨y, hy, rfl⟩ := Migration.returns_between_iff.1 h₂
  have hist : History first ((x.plan o₁.mode).statements ++ ((y.plan o₂.mode).statements ++ []))
      y.sides.target := .step c₂ k₂ hx (.step c₃ k₃ hy (.done _))
  obtain ⟨d, hd, -⟩ := hist.executes c₁ k₁ c₁.toOwned.mirrors
  rw [List.append_nil] at hd
  rw [Migration.statements_ofSettled, Migration.statements_ofSettled]
  exact ⟨d, hd⟩

theorem Migration.histories_compose_of_chain :
    (chain "items" "int").Closed ∧ (chain "entries" "bigint").Closed ∧
      (chain "entries" "int").Closed ∧ (chain "items" "int").NoRidingKeys ∧
      (chain "entries" "bigint").NoRidingKeys ∧ (chain "entries" "int").NoRidingKeys ∧
      Returns (Migration.between (RenameTable.resolver ⟨[("items", "entries")]⟩) {}
        (chain "items" "int") (chain "entries" "bigint")) () (.ofSettled {} renamedChain) () ∧
      ∃ m, Returns (Migration.between (.never : Resolver (StateM Unit)) {}
          (chain "entries" "bigint") (chain "entries" "int")) () m () ∧
        ∃ d, (chain "items" "int").executeAll?
          ((Migration.ofSettled {} renamedChain).statements ++ m.statements) = some d := by
  have c₁ := closed_chain "items" "int"
  have c₂ := closed_chain "entries" "bigint"
  have c₃ := closed_chain "entries" "int"
  have k₁ : (chain "items" "int").NoRidingKeys := by decide
  have k₂ : (chain "entries" "bigint").NoRidingKeys := by decide
  have k₃ : (chain "entries" "int").NoRidingKeys := by decide
  have hx := returns_settle_renamedChain
  have h₁ := Migration.returns_between {} hx
  have h₂ := Migration.returns_between {}
    (Sides.returns_settle_never ⟨chain "entries" "bigint", chain "entries" "int"⟩ ())
  refine ⟨c₁, c₂, c₃, k₁, k₂, k₃, h₁, _, h₂, ?_⟩
  obtain ⟨y, hy, -, -, hd⟩ := Migration.histories_compose c₁ c₂ c₃ k₁ k₂ k₃ h₁
  rw [← hx.unique hy] at hd
  exact hd h₂

/-! ## Names that are declared -/

/-- Members of a staff, each with an identity and the identity of a superior. -/
def staff (table : String) : Catalog where
  tables := ⟨[⟨table⟩], Table.nodup_keys table⟩
  columns := ⟨[{ table, name := "id", type := "int" }, { table, name := "boss", type := "int" }],
    by simp [Row.key]⟩
  primaryKeys := ⟨[⟨table, "staff_pk", false, ["id"]⟩], List.nodup_singleton _⟩

/-- A staff in which superiors are members themselves. The foreign key has a name, but none of its
own. -/
def ranks (table name : String) : Catalog :=
  { staff table with
    foreignKeys := ⟨[⟨table, name, false, ["boss"], table, ["id"], .noAction, .noAction⟩],
      List.nodup_singleton _⟩ }

/-- The settled catalogs of a staff that is renamed. The target has taken over the name that the
foreign key has in the database. -/
def renamedRanks : Settled where
  sides := ⟨ranks "users" "user_boss_user_id_fk", ranks "users" "user_boss_user_id_fk"⟩
  renames := { tables := [⟨⟨"user"⟩, ⟨"users"⟩⟩] }

/-- **The name that is declared may not be the one in the database**: after the table is renamed,
the foreign key is dropped under a name that it has not got. -/
theorem Migration.declared_name_unknown :
    (ranks "user" "user_boss_user_id_fk").Closed ∧ (ranks "users" "users_boss_users_id_fk").Closed ∧
      (staff "users").Closed ∧ (ranks "user" "user_boss_user_id_fk").NoRidingKeys ∧
      (ranks "users" "users_boss_users_id_fk").NoRidingKeys ∧ (staff "users").NoRidingKeys ∧
      ∃ m₁ m₂ c, Returns (Migration.between (RenameTable.resolver ⟨[("user", "users")]⟩) {}
          (ranks "user" "user_boss_user_id_fk") (ranks "users" "users_boss_users_id_fk")) () m₁ () ∧
        Returns (Migration.between (.never : Resolver (StateM Unit)) {}
          (ranks "users" "users_boss_users_id_fk") (staff "users")) () m₂ () ∧
        (ranks "user" "user_boss_user_id_fk").executeAll? m₁.statements = some c ∧
        c.executeAll? m₂.statements = none := by
  have hx : Returns (Sides.settle (RenameTable.resolver ⟨[("user", "users")]⟩)
      ⟨ranks "user" "user_boss_user_id_fk", ranks "users" "users_boss_users_id_fk"⟩) ()
      renamedRanks () := by
    refine returns_bind_iff.2
      ⟨(⟨[], [], renamedRanks.renames.tables⟩, renamedRanks.sides), (), ?_, ?_⟩
    · rfl
    · refine returns_bind_iff.2 ⟨_, (), Settled.returns_columns_of_none _ rfl rfl, ?_⟩
      refine returns_bind_iff.2 ⟨_, (), Settled.returns_views_of_none rfl, ?_⟩
      exact returns_pure_iff.2 ⟨rfl, rfl⟩
  have hy := Sides.returns_settle_never
    ⟨ranks "users" "users_boss_users_id_fk", staff "users"⟩ ()
  have h₁ := Migration.returns_between {} hx
  have h₂ := Migration.returns_between {} hy
  have hm₁ : (Migration.ofSettled {} renamedRanks).statements = [.renameTable "user" "users"] := by
    decide
  have hm₂ : (Migration.ofSettled {} ⟨⟨ranks "users" "users_boss_users_id_fk", staff "users"⟩,
      {}⟩).statements = [.dropConstraint "users" "users_boss_users_id_fk" .foreignKey] := by
    decide
  have hrel : Catalog.IsRelabelled (.ofTables [("user", "users")])
      (ranks "user" "user_boss_user_id_fk") (ranks "users" "user_boss_user_id_fk") := by
    constructor <;> decide
  have hrun : (ranks "user" "user_boss_user_id_fk").execute? (.renameTable "user" "users") =
      some (ranks "users" "user_boss_user_id_fk") := by
    show Catalog.rename? _ (ranks "user" "user_boss_user_id_fk").tables (.single "user")
      (.single "users") _ = _
    exact Catalog.rename?_eq_some (by decide) (by decide) hrel
  refine ⟨by decide, by decide, by decide, by decide, by decide, by decide, _, _,
    ranks "users" "user_boss_user_id_fk", h₁, h₂, ?_, ?_⟩
  · rw [hm₁, Catalog.executeAll?, List.foldlM_cons, hrun]
    rfl
  · rw [hm₂]
    rfl

end SchemaEvolution
