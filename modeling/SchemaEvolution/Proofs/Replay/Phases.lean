import Mathlib.Data.List.Perm.Basic
import SchemaEvolution.Proofs.Scheduled

/-!
# What a phase consists of

A statement is told by its phase and what it is about (`Phase.statement_argument`). So the
statements of a phase all have one form (`Phase.Holds`), and a phase is a list of the arguments of
that form, each of them once (`PlanInput.exists_phase_eq`). A plan is its phases, one after the
other (`PlanInput.statements_eq`).
-/

namespace SchemaEvolution

/-! ## Forms of statements -/

namespace Phase

/-- What the statements of a phase are about. -/
def Argument : Phase → Type
  | createTables => TableDefinition
  | dropForeignKeys => String × String
  | dropTables => String
  | renameTables => String × String
  | renameColumns => String × String × String
  | dropViews => String
  | renameViews => String × String
  | alterViews => View
  | dropChecks => String × String
  | dropIndexes => Index
  | dropPrimaryKeys => PrimaryKey
  | alterColumns => ColumnAlteration × Column × Bool × Bool
  | recreateColumns => Column × Bool
  | addColumns => Column × Bool
  | createPrimaryKeys => PrimaryKey
  | createIndexes => Index
  | createForeignKeys => ForeignKey
  | createChecks => Check
  | dropColumns => Column
  | createViews => View × Bool

/-- The form of the statements of a phase. -/
def statement : (ph : Phase) → ph.Argument → Statement
  | createTables, d => .createTable d
  | dropForeignKeys, (t, n) => .dropConstraint t n .foreignKey
  | dropTables, t => .dropTable t
  | renameTables, (old, new) => .renameTable old new
  | renameColumns, (t, old, new) => .renameColumn t old new
  | dropViews, n => .dropView n
  | renameViews, (old, new) => .renameView old new
  | alterViews, v => .alterView v
  | dropChecks, (t, n) => .dropConstraint t n .check
  | dropIndexes, i => .dropIndex i
  | dropPrimaryKeys, k => .dropPrimaryKey k
  | alterColumns, (a, c, isKey, wasKey) => .alterColumn a c isKey wasKey
  | recreateColumns, (c, isKey) => .recreateColumn c isKey
  | addColumns, (c, isKey) => .addColumn c isKey
  | createPrimaryKeys, k => .createPrimaryKey k
  | createIndexes, i => .createIndex i
  | createForeignKeys, k => .createForeignKey k
  | createChecks, k => .createCheck k
  | dropColumns, c => .dropColumn c
  | createViews, (v, replaces) => .createView v replaces

end Phase

/-- What a statement is about. -/
def Statement.argument : (s : Statement) → s.phase.Argument
  | .createTable d => d
  | .dropConstraint t n .foreignKey => (t, n)
  | .dropTable t => t
  | .renameTable old new => (old, new)
  | .renameColumn t old new => (t, old, new)
  | .dropView n => n
  | .renameView old new => (old, new)
  | .alterView v => v
  | .dropConstraint t n .check => (t, n)
  | .dropIndex i => i
  | .dropPrimaryKey k => k
  | .alterColumn a c isKey wasKey => (a, c, isKey, wasKey)
  | .recreateColumn c isKey => (c, isKey)
  | .addColumn c isKey => (c, isKey)
  | .createPrimaryKey k => k
  | .createIndex i => i
  | .createForeignKey k => k
  | .createCheck k => k
  | .dropColumn c => c
  | .createView v replaces => (v, replaces)

/-- The statements of a phase are those of one form. -/
structure Phase.Holds {β : Type} (ph : Phase) (mk : β → Statement) : Prop where
  phase_eq : ∀ b, (mk b).phase = ph
  exists_eq : ∀ s : Statement, s.phase = ph → ∃ b, mk b = s
  injective : Function.Injective mk

namespace Phase

/-- **A statement has the form of its phase.** -/
theorem statement_argument (s : Statement) : s.phase.statement s.argument = s := by
  cases s with
  | dropConstraint t n sort => cases sort <;> rfl
  | _ => rfl

theorem phase_statement (ph : Phase) (b : ph.Argument) : (ph.statement b).phase = ph := by
  cases ph <;> rfl

theorem statement_injective (ph : Phase) : Function.Injective ph.statement := by
  intro a b h
  have hargument (b : ph.Argument) : HEq (ph.statement b).argument b := by
    cases ph <;> rfl
  exact eq_of_heq ((hargument a).symm.trans (h ▸ hargument b))

theorem holds (ph : Phase) : ph.Holds ph.statement where
  phase_eq := ph.phase_statement
  exists_eq s h := by
    subst h
    exact ⟨s.argument, statement_argument s⟩
  injective := ph.statement_injective

theorem holds_createTables : createTables.Holds Statement.createTable :=
  createTables.holds

theorem holds_dropForeignKeys :
    dropForeignKeys.Holds fun b : String × String => .dropConstraint b.1 b.2 .foreignKey :=
  dropForeignKeys.holds

theorem holds_dropTables : dropTables.Holds Statement.dropTable :=
  dropTables.holds

theorem holds_renameTables : renameTables.Holds fun b : String × String => .renameTable b.1 b.2 :=
  renameTables.holds

theorem holds_renameColumns :
    renameColumns.Holds fun b : String × String × String => .renameColumn b.1 b.2.1 b.2.2 :=
  renameColumns.holds

theorem holds_dropViews : dropViews.Holds Statement.dropView :=
  dropViews.holds

theorem holds_renameViews : renameViews.Holds fun b : String × String => .renameView b.1 b.2 :=
  renameViews.holds

theorem holds_alterViews : alterViews.Holds Statement.alterView :=
  alterViews.holds

theorem holds_dropChecks :
    dropChecks.Holds fun b : String × String => .dropConstraint b.1 b.2 .check :=
  dropChecks.holds

theorem holds_dropIndexes : dropIndexes.Holds Statement.dropIndex :=
  dropIndexes.holds

theorem holds_dropPrimaryKeys : dropPrimaryKeys.Holds Statement.dropPrimaryKey :=
  dropPrimaryKeys.holds

theorem holds_alterColumns :
    alterColumns.Holds fun b : ColumnAlteration × Column × Bool × Bool =>
      .alterColumn b.1 b.2.1 b.2.2.1 b.2.2.2 :=
  alterColumns.holds

theorem holds_recreateColumns :
    recreateColumns.Holds fun b : Column × Bool => .recreateColumn b.1 b.2 :=
  recreateColumns.holds

theorem holds_addColumns : addColumns.Holds fun b : Column × Bool => .addColumn b.1 b.2 :=
  addColumns.holds

theorem holds_createPrimaryKeys : createPrimaryKeys.Holds Statement.createPrimaryKey :=
  createPrimaryKeys.holds

theorem holds_createIndexes : createIndexes.Holds Statement.createIndex :=
  createIndexes.holds

theorem holds_createForeignKeys : createForeignKeys.Holds Statement.createForeignKey :=
  createForeignKeys.holds

theorem holds_createChecks : createChecks.Holds Statement.createCheck :=
  createChecks.holds

theorem holds_dropColumns : dropColumns.Holds Statement.dropColumn :=
  dropColumns.holds

theorem holds_createViews : createViews.Holds fun b : View × Bool => .createView b.1 b.2 :=
  createViews.holds

end Phase

/-! ## Phases of a plan -/

theorem exists_map_eq {β : Type} {mk : β → Statement} :
    ∀ {ss : List Statement}, (∀ s ∈ ss, ∃ b, mk b = s) → ∃ bs : List β, ss = bs.map mk
  | [], _ => ⟨[], rfl⟩
  | s :: ss, h => by
    obtain ⟨b, rfl⟩ := h s (List.mem_cons_self ..)
    obtain ⟨bs, rfl⟩ := exists_map_eq fun s' hs' => h s' (List.mem_cons_of_mem _ hs')
    exact ⟨b :: bs, rfl⟩

namespace PlanInput

variable {p : PlanInput} {ph : Phase}

/-- The statements of one phase of a plan. -/
def phase (p : PlanInput) (ph : Phase) : List Statement :=
  Statement.inPhase p.scheduled ph

theorem mem_phase {s : Statement} : s ∈ p.phase ph ↔ s ∈ p.statements ∧ s.phase = ph := by
  rw [phase, Statement.mem_inPhase, mem_statements]

/-- **A plan is its phases**, one after the other. -/
theorem statements_eq (p : PlanInput) : p.statements = Phase.all.flatMap p.phase :=
  Statement.ordered_eq_flatMap _

/-- **A phase is a list of arguments** of its form, each of them once. -/
theorem exists_phase_eq {β : Type} {mk : β → Statement} (h : ph.Holds mk) (p : PlanInput) :
    ∃ bs : List β, p.phase ph = bs.map mk ∧ bs.Nodup ∧ ∀ b, b ∈ bs ↔ mk b ∈ p.statements := by
  obtain ⟨bs, hbs⟩ := exists_map_eq fun s hs => h.exists_eq s (mem_phase.1 hs).2
  have hn : (p.phase ph).Nodup := Statement.nodup_inPhase _ _
  refine ⟨bs, hbs, (hbs ▸ hn).of_map, fun b => ?_⟩
  have hb : mk b ∈ p.phase ph ↔ mk b ∈ p.statements := by
    rw [mem_phase, h.phase_eq]
    exact and_iff_left rfl
  rw [← hb, hbs, List.mem_map_of_injective h.injective]

/-- A phase that carries out things of a list carries out the same things in some order. -/
theorem exists_phase_perm {β γ : Type} {mk : β → Statement} (h : ph.Holds mk) (p : PlanInput)
    {f : γ → β} {rs : List γ} (hn : (rs.map f).Nodup)
    (hm : ∀ b, mk b ∈ p.statements ↔ ∃ r ∈ rs, f r = b) :
    ∃ qs : List γ, rs.Perm qs ∧ p.phase ph = qs.map fun r => mk (f r) := by
  obtain ⟨bs, hbs, hbn, hbm⟩ := exists_phase_eq h p
  have hp : bs.Perm (rs.map f) := by
    refine (List.perm_ext_iff_of_nodup hbn hn).2 fun b => ?_
    rw [hbm, hm, List.mem_map]
  obtain ⟨qs, rfl, hqs⟩ := (congrFun (congrFun (List.eq_map_comp_perm f) bs) rs).mpr hp
  exact ⟨qs, hqs.symm, by rw [hbs, List.map_map]; rfl⟩

end PlanInput

end SchemaEvolution
