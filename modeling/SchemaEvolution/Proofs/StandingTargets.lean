import SchemaEvolution.Proofs.KeptRenames
import SchemaEvolution.Proofs.RebuiltKeys
import SchemaEvolution.Proofs.Replay.TableNames
import SchemaEvolution.Proofs.ReachedTarget
import SchemaEvolution.Proofs.WithoutRenames

/-!
# Foreign keys and the tables that they refer to

A foreign key cannot be created before the table that it refers to has its name.

**Statements that create foreign keys by themselves** come after all tables have their final names
(`Settlement.target_stands_of_createForeignKey`), so they find the table.

**Foreign keys that are declared with a created table** come first of all. They wait if another
table is created, but not if another table is renamed.

**Theorem (`Migration.targets_stand`).** Between closed catalogs, in either mode and with any
resolver, a foreign key that a statement creates refers to a table that is there at that time,
unless the statement creates the table of the foreign key, and the foreign key refers to the new
name of a table that is renamed. In that case the table is not there.
-/

namespace SchemaEvolution

theorem Phase.not_mem_finishing : ∀ ph ∈ Settlement.preparing, ph ∉ Prepared.finishing := by
  decide

namespace Statement

variable {ss : List Statement} {s t : Statement} {i : Nat}

/-- The foreign keys that a statement creates. -/
def foreignKeysCreated : Statement → List ForeignKey
  | .createTable d => d.foreignKeys
  | .createForeignKey k => [k]
  | _ => []

/-- Statements up to a position are of earlier phases or of the same one. -/
theorem rank_le_of_mem_take (ht : (ordered ss)[i]? = some t) (hs : s ∈ (ordered ss).take (i + 1)) :
    s.phase.rank ≤ t.phase.rank := by
  obtain ⟨hi, rfl⟩ := List.getElem?_eq_some_iff.1 ht
  obtain ⟨j, hj, rfl⟩ := List.mem_take_iff_getElem.1 hs
  rcases Nat.eq_or_lt_of_le (show j ≤ i by omega) with rfl | hlt
  · exact Nat.le_refl _
  · exact List.pairwise_iff_getElem.1 (pairwise_ordered ss) j i (by omega) hi hlt

theorem tablesAfter_of_finishing (h : s.phase ∈ Prepared.finishing) (names : List String) :
    s.tablesAfter names = names := by
  cases s with
  | createTable | dropTable | renameTable => simp [phase, Prepared.finishing] at h
  | _ => rfl

end Statement

namespace PlanInput

variable {p : PlanInput} {s : Statement} {i : Nat}

/-- Up to a statement of the last phases there is all of the first phases. -/
theorem take_eq_of_finishing (hs : p.statements[i]? = some s)
    (hf : s.phase ∈ Prepared.finishing) : ∃ n, p.statements.take (i + 1) =
      Settlement.preparing.flatMap p.phase ++ (Prepared.finishing.flatMap p.phase).take n := by
  have heq : p.statements =
      Settlement.preparing.flatMap p.phase ++ Prepared.finishing.flatMap p.phase := by
    rw [statements_eq, Phase.all_eq, List.flatMap_append]
  have hle : (Settlement.preparing.flatMap p.phase).length ≤ i := by
    by_contra hlt
    rw [heq, List.getElem?_append_left (by omega)] at hs
    obtain ⟨ph, hph, hm⟩ := List.mem_flatMap.1 (List.mem_of_getElem? hs)
    rw [(mem_phase.1 hm).2] at hf
    exact Phase.not_mem_finishing ph hph hf
  refine ⟨i + 1 - (Settlement.preparing.flatMap p.phase).length, ?_⟩
  rw [heq, List.take_append, List.take_of_length_le (by omega)]

end PlanInput

namespace Settlement

open Statement (tablesAfterAll)

variable {source target middle : Catalog} {x : Settled} {mode : Mode} {i : Nat} {s : Statement}
  {k : ForeignKey}

/-- From the statement on with which the last phases begin, the tables are those of the target. -/
theorem mem_tables_of_finishing (h : Settlement source target x middle) (hs : source.Owned)
    (ht : target.Closed) (hi : (x.plan mode).statements[i]? = some s)
    (hf : s.phase ∈ Prepared.finishing) (t : String) :
    t ∈ tablesAfterAll source.tableNames ((x.plan mode).statements.take (i + 1)) ↔
      x.sides.target.hasTable t = true := by
  obtain ⟨c, hc, hprep⟩ := h.exists_prepared hs ht mode
  obtain ⟨n, hn⟩ := PlanInput.take_eq_of_finishing hi hf
  have hrest : ∀ s ∈ (Prepared.finishing.flatMap (x.plan mode).phase).take n, ∀ names,
      Statement.tablesAfter names s = names := by
    intro s hs
    obtain ⟨ph, hph, hm⟩ := List.mem_flatMap.1 (List.mem_of_mem_take hs)
    exact Statement.tablesAfter_of_finishing ((PlanInput.mem_phase.1 hm).2 ▸ hph)
  rw [hn, Statement.tablesAfterAll_append, ← Catalog.tableNames_replay? hc,
    Statement.tablesAfterAll_eq_self hrest, Catalog.mem_tableNames, Catalog.hasTable,
    Collection.hasKey_iff_exists, Collection.hasKey_iff_exists]
  exact exists_congr fun y => and_congr_left fun _ => hprep.tables y

theorem mem_tables_of_createTable {d : TableDefinition}
    (hi : (x.plan mode).statements[i]? = some (.createTable d)) (t : String) :
    t ∈ tablesAfterAll source.tableNames ((x.plan mode).statements.take (i + 1)) ↔
      source.hasTable t = true ∨
        ∃ d, .createTable d ∈ (x.plan mode).statements.take (i + 1) ∧ d.name = t := by
  rw [Statement.mem_tablesAfterAll_of_creates, Catalog.mem_tableNames, Catalog.hasTable]
  intro s hs
  refine Phase.holds_createTables.exists_eq s ?_
  have hle : s.phase.rank ≤ Phase.createTables.rank := Statement.rank_le_of_mem_take hi hs
  revert hle
  generalize s.phase = ph
  cases ph <;> decide

/-! ## Foreign keys -/

theorem target_stands_of_createForeignKey (h : Settlement source target x middle)
    (hs : source.Owned) (ht : target.Closed)
    (hi : (x.plan mode).statements[i]? = some (.createForeignKey k)) :
    k.target ∈ tablesAfterAll source.tableNames ((x.plan mode).statements.take (i + 1)) := by
  have hk : k ∈ x.sides.target.foreignKeys.rows :=
    Settled.mem_target_of_createForeignKey (List.mem_of_getElem? hi)
  have hf : Phase.createForeignKeys ∈ Prepared.finishing := by decide
  rw [h.mem_tables_of_finishing hs ht hi hf]
  exact (h.kept.owned ht.toOwned).targets k hk

/-- A foreign key is declared with a created table only if no other table is created. -/
theorem declared_with_createTable {d : TableDefinition}
    (hd : .createTable d ∈ (x.plan mode).statements) (hk : k ∈ d.foreignKeys) :
    k ∈ x.sides.target.foreignKeys.rows ∧ ∀ t, (x.plan mode).creates t = true → t = d.name := by
  obtain ⟨y, hy, rfl⟩ := PlanInput.mem_createTable.1 hd
  rw [show ((x.plan mode).definition y.name).foreignKeys = if (x.plan mode).defersForeignKeys
    then [] else x.sides.target.foreignKeys.rows.filter (·.table == y.name) from rfl] at hk
  cases hw : (x.plan mode).defersForeignKeys with
  | true =>
    rw [hw, if_pos rfl] at hk
    cases hk
  | false =>
    rw [hw, if_neg Bool.false_ne_true] at hk
    refine ⟨(List.mem_filter.1 hk).1, fun t hc => ?_⟩
    obtain ⟨z, hz, rfl⟩ := PlanInput.creates_iff.1 hc
    have hone : ∀ t ∈ (x.plan mode).difference.tables.created,
        ∀ u ∈ (x.plan mode).difference.tables.created, t.name = u.name := by
      simpa [PlanInput.defersForeignKeys] using hw
    exact hone z hz y hy

/-- **A foreign key that is declared with a created table finds the table that it refers to**,
unless that one is renamed. -/
theorem target_stands_iff_of_createTable (h : Settlement source target x middle)
    (ht : target.Owned) {d : TableDefinition}
    (hi : (x.plan mode).statements[i]? = some (.createTable d)) (hk : k ∈ d.foreignKeys) :
    k.target ∈ tablesAfterAll source.tableNames ((x.plan mode).statements.take (i + 1)) ↔
      ¬∃ r ∈ x.renames.tables, r.new.name = k.target := by
  have hd := List.mem_of_getElem? hi
  rw [mem_tables_of_createTable hi]
  constructor
  · intro hstands h'
    obtain ⟨r, hr, e⟩ := h'
    rcases hstands with hold | ⟨d', hd', e'⟩
    · rw [← e] at hold
      cases hold.symm.trans (h.tables.new_not_in_source r hr)
    · exact (h.renamed_table hr).2.2.2 d' (List.mem_of_mem_take hd') (e'.trans e.symm)
  · intro hno
    obtain ⟨hkt, honly⟩ := declared_with_createTable hd hk
    have htarget := (h.kept.owned ht).targets k hkt
    cases hs : x.sides.source.hasTable k.target with
    | false =>
      refine .inr ⟨d, ?_, (honly _ (creates_iff.2 ⟨htarget, hs⟩)).symm⟩
      obtain ⟨hlt, hget⟩ := List.getElem?_eq_some_iff.1 hi
      exact List.mem_take_iff_getElem.2 ⟨i, by omega, hget⟩
    | true =>
      -- The table was there under this name, since it was not renamed.
      obtain ⟨y, hy, e⟩ := Collection.hasKey_iff_exists.1 hs
      obtain ⟨z, hz, -, ⟨r, hr, -, er⟩ | ⟨-, ez⟩⟩ :=
        Matching.exists_of_mem h.follows_tables h.renamed.tables hy
      · exact absurd ⟨r, hr, Key.single.inj (er.symm.trans e)⟩ hno
      · exact .inl (Collection.hasKey_iff_exists.2 ⟨z, hz, ez.symm.trans e⟩)

end Settlement

/-- **Foreign keys are created when the tables that they refer to are there**, except for those that
are declared with a created table and refer to the new name of a renamed one. -/
theorem Migration.targets_stand {σ : Type} {r : Resolver (StateM σ)} {options : MigrationOptions}
    {source target : Catalog} {a b : σ} {m : Migration} (hs : source.Closed) (ht : target.Closed)
    (h : Returns (Migration.between r options source target) a m b) :
    ∃ x, Returns (Sides.settle r ⟨source, target⟩) a x b ∧ Migration.ofSettled options x = m ∧
      ∀ (i : Nat) (s : Statement), m.statements[i]? = some s → ∀ k ∈ s.foreignKeysCreated,
        (k.target ∈ Statement.tablesAfterAll source.tableNames (m.statements.take (i + 1)) ↔
          ¬(s.phase = .createTables ∧ ∃ r ∈ x.renames.tables, r.new.name = k.target)) := by
  obtain ⟨x, hx, rfl⟩ := Migration.returns_between_iff.1 h
  obtain ⟨middle, hm⟩ := exists_settlement hx
  refine ⟨x, hx, rfl, ?_⟩
  rw [Migration.statements_ofSettled]
  intro i s hi k hk
  cases s with
  | createTable d =>
    rw [hm.target_stands_iff_of_createTable ht.toOwned hi hk]
    exact not_congr (and_iff_right rfl).symm
  | createForeignKey l =>
    obtain rfl := List.mem_singleton.1 hk
    refine iff_of_true (hm.target_stands_of_createForeignKey hs.toOwned ht hi) ?_
    exact fun hno => Phase.noConfusion hno.1
  | _ => cases hk

/-- Posts, each with the user who wrote it. -/
def posts : Catalog where
  tables := ⟨[⟨"users"⟩, ⟨"posts"⟩], by decide⟩
  columns := ⟨[{ table := "users", name := "id", type := "int" },
    { table := "posts", name := "author", type := "int" }], by decide⟩
  foreignKeys := ⟨[⟨"posts", "author_fk", true, ["author"], "users", ["id"], .noAction, .noAction⟩],
    List.nodup_singleton _⟩

theorem Migration.targets_stand_of_posts :
    (singleColumn "users" "id").Closed ∧ posts.Closed ∧
      Returns (Migration.between (.never : Resolver (StateM Unit)) {} (singleColumn "users" "id")
        posts) () (.ofSettled {} ⟨⟨singleColumn "users" "id", posts⟩, {}⟩) () ∧
      "users" ∈ Statement.tablesAfterAll (singleColumn "users" "id").tableNames
        ((Migration.ofSettled {} ⟨⟨singleColumn "users" "id", posts⟩, {}⟩).statements.take 1) := by
  have hs : (singleColumn "users" "id").Closed := by decide
  have ht : posts.Closed := by decide
  have hx := Sides.returns_settle_never ⟨singleColumn "users" "id", posts⟩ ()
  have h := Migration.returns_between {} hx
  refine ⟨hs, ht, h, ?_⟩
  obtain ⟨y, hy, -, hk⟩ := Migration.targets_stand hs ht h
  rw [← hx.unique hy] at hk
  refine (hk 0 (.createTable ((Settled.plan .default
    ⟨⟨singleColumn "users" "id", posts⟩, {}⟩).definition "posts")) (by decide)
    ⟨"posts", "author_fk", true, ["author"], "users", ["id"], .noAction, .noAction⟩
    (by decide)).2 ?_
  intro hno
  obtain ⟨-, r, hr, -⟩ := hno
  cases hr

/-- **A created table may refer to a name that its target does not have yet**, if the target is
renamed in the same migration. -/
theorem Migration.created_before_renamed :
    (singleColumn "user" "id").Closed ∧ posts.Closed ∧
      ∃ m d, Returns (Migration.between (RenameTable.resolver ⟨[("user", "users")]⟩) {}
          (singleColumn "user" "id") posts) () m () ∧
        m.statements = [.createTable d, .renameTable "user" "users"] ∧
        (∃ k ∈ d.foreignKeys, k.target = "users") ∧
        "users" ∉ Statement.tablesAfterAll (singleColumn "user" "id").tableNames
          (m.statements.take 1) := by
  have hs : (singleColumn "user" "id").Closed := by decide
  have ht : posts.Closed := by decide
  have hx : Returns (Sides.settle (RenameTable.resolver ⟨[("user", "users")]⟩)
      ⟨singleColumn "user" "id", posts⟩) ()
      ⟨⟨singleColumn "users" "id", posts⟩, { tables := [⟨⟨"user"⟩, ⟨"users"⟩⟩] }⟩ () := by
    decide +kernel
  refine ⟨hs, ht, _, (Settled.plan .default ⟨⟨singleColumn "users" "id", posts⟩,
    { tables := [⟨⟨"user"⟩, ⟨"users"⟩⟩] }⟩).definition "posts", Migration.returns_between {} hx, ?_⟩
  decide

end SchemaEvolution
