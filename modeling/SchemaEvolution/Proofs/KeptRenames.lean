import SchemaEvolution.Proofs.Planning

/-!
# Renames never become a drop and a creation

Data lives in tables and columns, so a rename that turned into a drop and a creation would lose it.

**Theorem (`Migration.renames_kept`).** Whatever the catalogs, the mode and the resolver: in a
migration every accepted rename is carried out by one statement, and no statement drops or creates
what is renamed.

Renames are carried through the source before the two sides are compared again. By then the old key
is on neither side and the new key is on both, so the difference holds neither.
-/

namespace SchemaEvolution

/-- Statements rename what has been renamed, once, and neither drop nor create it. -/
structure RenamesKept (x : Settled) (ss : List Statement) : Prop where
  /-- A renamed table. -/
  tables : ∀ r ∈ x.renames.tables,
    ss.count (.renameTable r.old.name r.new.name) = 1 ∧
      .dropTable r.old.name ∉ ss ∧ .dropTable r.new.name ∉ ss ∧
      ∀ d, .createTable d ∈ ss → d.name ≠ r.new.name
  /-- The columns that a renamed table has on both sides. -/
  table_columns : ∀ r ∈ x.renames.tables, ∀ c : Column, c.table = r.new.name →
    x.sides.source.hasColumn c.table c.name = true →
    x.sides.target.hasColumn c.table c.name = true →
      (∀ isKey, .addColumn c isKey ∉ ss) ∧ .dropColumn c ∉ ss
  /-- A renamed column. Its table has its new name. -/
  columns : ∀ r ∈ x.renames.columns,
    ss.count (.renameColumn r.new.table r.old.name r.new.name) = 1 ∧
      ∀ c : Column, c.table = r.new.table → c.name = r.old.name ∨ c.name = r.new.name →
        (∀ isKey, .addColumn c isKey ∉ ss) ∧ .dropColumn c ∉ ss
  /-- A renamed view. -/
  views : ∀ r ∈ x.renames.views,
    ss.count (.renameView r.old.name r.new.name) = 1 ∧
      .dropView r.old.name ∉ ss ∧ .dropView r.new.name ∉ ss ∧
      ∀ v : View, v.name = r.new.name → .createView v false ∉ ss

namespace Settled

variable {x : Settled} {mode : Mode} {c : Column} {v : View}

theorem not_addColumn_of_source (h : x.sides.source.hasColumn c.table c.name = true)
    (isKey : Bool) : .addColumn c isKey ∉ (x.plan mode).statements := by
  rw [PlanInput.mem_addColumn]
  intro h'
  obtain ⟨hc, -⟩ := h'
  have hno := (Collection.mem_created_iff.1 hc).2
  rw [Catalog.hasColumn, show Key.scoped c.table c.name = Row.key c from rfl, hno] at h
  cases h

theorem not_addColumn_of_not_target (h : x.sides.target.hasColumn c.table c.name = false)
    (isKey : Bool) : .addColumn c isKey ∉ (x.plan mode).statements := by
  rw [PlanInput.mem_addColumn]
  intro h'
  obtain ⟨hc, -⟩ := h'
  exact Collection.hasKey_eq_false_iff.1 h c (Collection.mem_created_iff.1 hc).1 rfl

theorem not_dropColumn_of_target (h : x.sides.target.hasColumn c.table c.name = true) :
    .dropColumn c ∉ (x.plan mode).statements := by
  rw [PlanInput.mem_dropColumn]
  intro h'
  obtain ⟨hc, -⟩ := h'
  have hno := (Collection.mem_dropped_iff.1 hc).2
  rw [Catalog.hasColumn, show Key.scoped c.table c.name = Row.key c from rfl, hno] at h
  cases h

theorem not_dropColumn_of_not_source (h : x.sides.source.hasColumn c.table c.name = false) :
    .dropColumn c ∉ (x.plan mode).statements := by
  rw [PlanInput.mem_dropColumn]
  intro h'
  obtain ⟨hc, -⟩ := h'
  exact Collection.hasKey_eq_false_iff.1 h c (Collection.mem_dropped_iff.1 hc).1 rfl

end Settled

namespace Settlement

variable {source target middle : Catalog} {x : Settled} {mode : Mode}

theorem renamed_table (h : Settlement source target x middle) {r : Renaming Table}
    (hr : r ∈ x.renames.tables) :
    (x.plan mode).statements.count (.renameTable r.old.name r.new.name) = 1 ∧
      .dropTable r.old.name ∉ (x.plan mode).statements ∧
      .dropTable r.new.name ∉ (x.plan mode).statements ∧
      ∀ d, .createTable d ∈ (x.plan mode).statements → d.name ≠ r.new.name := by
  refine ⟨?_, ?_, ?_, ?_⟩
  · exact PlanInput.count_statements (PlanInput.mem_renameTable.2 ⟨r, hr, rfl, rfl⟩)
  · intro hd
    have hs := (drops_iff.1 (PlanInput.mem_dropTable.1 hd)).1
    rw [h.old_table_gone hr] at hs
    cases hs
  · intro hd
    have ht := (drops_iff.1 (PlanInput.mem_dropTable.1 hd)).2
    rw [h.new_table_wanted hr] at ht
    cases ht
  · intro d hd e
    obtain ⟨t, ht, rfl⟩ := PlanInput.mem_createTable.1 hd
    have hno := (Collection.mem_created_iff.1 ht).2
    have hyes := h.new_table_there hr
    rw [← e] at hyes
    cases hno.symm.trans hyes

theorem renamed_column (h : Settlement source target x middle) {r : Renaming Column}
    (hr : r ∈ x.renames.columns) :
    (x.plan mode).statements.count (.renameColumn r.new.table r.old.name r.new.name) = 1 ∧
      ∀ c : Column, c.table = r.new.table → c.name = r.old.name ∨ c.name = r.new.name →
        (∀ isKey, .addColumn c isKey ∉ (x.plan mode).statements) ∧
          .dropColumn c ∉ (x.plan mode).statements := by
  constructor
  · exact PlanInput.count_statements (PlanInput.mem_renameColumn.2 ⟨r, hr, rfl, rfl, rfl⟩)
  · intro c hc h'
    rcases h' with hn | hn
    · have hk : Key.scoped c.table c.name = Row.key r.old := by
        rw [hc, hn, h.columns_table r hr]
        rfl
      constructor
      · refine Settled.not_addColumn_of_not_target ?_
        rw [h.kept.hasColumn, Catalog.hasColumn, hk]
        exact h.columns.old_not_in_target r hr
      · refine Settled.not_dropColumn_of_not_source ?_
        rw [Catalog.hasColumn, hk]
        exact h.old_column_gone hr
    · have hk : Key.scoped c.table c.name = Row.key r.new := by
        rw [hc, hn]
        rfl
      constructor
      · refine Settled.not_addColumn_of_source ?_
        rw [Catalog.hasColumn, hk]
        exact h.new_column_there hr
      · refine Settled.not_dropColumn_of_target ?_
        rw [h.kept.hasColumn, Catalog.hasColumn, hk]
        exact h.columns.new_in_target r hr

theorem renamed_view (h : Settlement source target x middle) {r : Renaming View}
    (hr : r ∈ x.renames.views) :
    (x.plan mode).statements.count (.renameView r.old.name r.new.name) = 1 ∧
      .dropView r.old.name ∉ (x.plan mode).statements ∧
      .dropView r.new.name ∉ (x.plan mode).statements ∧
      ∀ v : View, v.name = r.new.name → .createView v false ∉ (x.plan mode).statements := by
  refine ⟨?_, ?_, ?_, ?_⟩
  · exact PlanInput.count_statements (PlanInput.mem_renameView.2 ⟨r, hr, rfl, rfl⟩)
  · intro hd
    obtain ⟨v, hv, e⟩ := PlanInput.mem_dropView.1 hd
    exact Collection.hasKey_eq_false_iff.1 (h.old_view_gone hr) v
      (Collection.mem_dropped_iff.1 hv).1 (congrArg Key.single e)
  · intro hd
    obtain ⟨v, hv, e⟩ := PlanInput.mem_dropView.1 hd
    have hno := (Collection.mem_dropped_iff.1 hv).2
    rw [h.kept.views, show Row.key v = Row.key r.new from congrArg Key.single e] at hno
    cases hno.symm.trans (h.views.new_in_target r hr)
  · intro v e hc
    rcases PlanInput.mem_createView.1 hc with ⟨hf, -⟩ | ⟨-, hv⟩
    · cases hf
    · have hno := (Collection.mem_created_iff.1 hv).2
      rw [show Row.key v = Row.key r.new from congrArg Key.single e] at hno
      cases hno.symm.trans (h.new_view_there hr)

theorem renamesKept (h : Settlement source target x middle) :
    RenamesKept x (x.plan mode).statements where
  tables _ hr := h.renamed_table hr
  table_columns _ _ _ _ hs ht :=
    ⟨Settled.not_addColumn_of_source hs, Settled.not_dropColumn_of_target ht⟩
  columns _ hr := h.renamed_column hr
  views _ hr := h.renamed_view hr

end Settlement

/-- **Renames never become a drop and a creation.** -/
theorem Migration.renames_kept {σ : Type} {r : Resolver (StateM σ)} {options : MigrationOptions}
    {source target : Catalog} {a b : σ} {m : Migration}
    (h : Returns (Migration.between r options source target) a m b) :
    ∃ x, Returns (Sides.settle r ⟨source, target⟩) a x b ∧ Migration.ofSettled options x = m ∧
      RenamesKept x m.statements := by
  obtain ⟨x, hx, rfl⟩ := Migration.returns_between_iff.1 h
  obtain ⟨middle, hs⟩ := exists_settlement hx
  rw [Migration.statements_ofSettled]
  exact ⟨x, hx, rfl, hs.renamesKept⟩

def singleColumn (table name : String) : Catalog where
  tables := ⟨[⟨table⟩], Table.nodup_keys table⟩
  columns := ⟨[{ table, name, type := "int" }], by simp⟩

/-- The settled catalogs of a table and its column that are both renamed. -/
def bothRenamed : Settled where
  sides := ⟨singleColumn "users" "key", singleColumn "users" "key"⟩
  renames := {
    tables := [⟨⟨"user"⟩, ⟨"users"⟩⟩]
    columns := [⟨⟨"users", "id", "int", false, none, false, false, none, none, none⟩,
      ⟨"users", "key", "int", false, none, false, false, none, none, none⟩⟩] }

theorem Migration.renames_kept_of_both_renamed :
    Returns (Migration.between
        (RenameTable.resolver ⟨[("user", "users"), ("users.id", "users.key")]⟩) {}
        (singleColumn "user" "id") (singleColumn "users" "key")) ()
      (.ofSettled {} bothRenamed) () ∧
      RenamesKept bothRenamed (Migration.ofSettled {} bothRenamed).statements := by
  have hx : Returns (Sides.settle
      (RenameTable.resolver ⟨[("user", "users"), ("users.id", "users.key")]⟩)
      ⟨singleColumn "user" "id", singleColumn "users" "key"⟩) () bothRenamed () := by decide +kernel
  have h := Migration.returns_between {} hx
  refine ⟨h, ?_⟩
  obtain ⟨y, hy, -, hk⟩ := Migration.renames_kept h
  rwa [← hx.unique hy] at hk

end SchemaEvolution
