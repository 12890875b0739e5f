import SchemaEvolution.Proofs.Scheduled

/-!
# Lists of phases

A plan can be put in order without sorting. It goes through the kinds of rows and puts each
statement on the list of some phase (`PlanInput.listed`); in the end the twenty lists are joined.
The list is then named wherever a statement is scheduled, often the same list in several places,
and one wrong name would break the order.

**No name is wrong** (`PlanInput.listed_eq`): every statement is listed under its own phase,
whatever the plan is made from. So joined lists are sorted statements
(`PlanInput.statements_eq_joined`).

**Theorem (`PlanInput.carried_out_in_order`).** The statements of a plan are the joined lists
without repetitions. No statement is repeated, the phases follow each other, and nothing that was
listed is lost. The catalogs, the difference, the alterations and the renames need not fit together.
-/

namespace SchemaEvolution

/-- A statement on the list of its own phase. -/
def Statement.withPhase (s : Statement) : Phase × Statement :=
  (s.phase, s)

namespace PlanInput

variable (p : PlanInput)

/-! ## Which list a statement is put on -/

def tablesListed : List (Phase × Statement) :=
  p.difference.tables.created.map (fun t => (.createTables, .createTable (p.definition t.name))) ++
    p.difference.tables.dropped.map (fun t => (.dropTables, .dropTable t.name)) ++
    p.renames.tables.map (fun r => (.renameTables, .renameTable r.old.name r.new.name))

def alterationListed (a : ColumnAlteration) : Phase × Statement :=
  if (a.change .generated).any Generated.needsNewColumn then
    (.recreateColumns, .recreateColumn a.right (p.isKey a.right))
  else (.alterColumns, .alterColumn a a.right (p.isKey a.right) (p.wasKey a.right))

def columnsListed : List (Phase × Statement) :=
  p.renames.columns.map
      (fun r => (.renameColumns, .renameColumn r.new.table r.old.name r.new.name)) ++
    (p.difference.columns.created.filter fun c => !p.creates c.table).map
      (fun c => (.addColumns, .addColumn c (p.isKey c))) ++
    (p.difference.columns.dropped.filter fun c => !p.drops c.table).map
      (fun c => (.dropColumns, .dropColumn c)) ++
    p.alterations.columns.map p.alterationListed

/-- Foreign keys on a former primary key. -/
def rebuildListed (a : PrimaryKeyAlteration) : List (Phase × Statement) :=
  match a.change .columns with
  | none => []
  | some d =>
    (p.referringTo a.left.table d.before).flatMap fun k =>
      (.dropForeignKeys, p.dropForeignKey k) ::
        ((p.target.foreignKeys.get? (.scoped k.table k.name)).map
          fun w => (.createForeignKeys, .createForeignKey w)).toList

/-- The statement that declares a primary key. -/
def keyListed? (k : PrimaryKey) : Option (Phase × Statement) :=
  if p.target.ridesOnColumn k then
    (p.createPrimaryKey? k).map fun s => (.alterColumns, s)
  else some (.createPrimaryKeys, .createPrimaryKey k)

def primaryKeysListed : List (Phase × Statement) :=
  let altered := p.alterations.primaryKeys
  let dropped := (p.difference.primaryKeys.dropped.filter fun k => !p.drops k.table) ++
    altered.map (·.left)
  let created := (p.difference.primaryKeys.created.filter fun k => !p.creates k.table) ++
    altered.map (·.right)
  altered.flatMap p.rebuildListed ++
    (dropped.filter fun k => !p.source.ridesOnColumn k).map
      (fun k => (.dropPrimaryKeys, .dropPrimaryKey k)) ++
    created.filterMap p.keyListed?

def indexesListed : List (Phase × Statement) :=
  (p.difference.indexes.dropped.filter fun i => !p.drops i.table).map
      (fun i => (.dropIndexes, .dropIndex i)) ++
    (p.difference.indexes.created.filter fun i => !(p.creates i.table && i.isUnique)).map
      (fun i => (.createIndexes, .createIndex i)) ++
    p.alterations.indexes.flatMap fun a =>
      [(.dropIndexes, .dropIndex a.left), (.createIndexes, .createIndex a.right)]

def foreignKeysListed : List (Phase × Statement) :=
  (p.difference.foreignKeys.dropped.filter fun k =>
      !p.drops k.table || (k.target != k.table && p.drops k.target)).map
      (fun k => (.dropForeignKeys, p.dropForeignKey k)) ++
    (p.difference.foreignKeys.created.filter fun k =>
      !p.creates k.table || p.defersForeignKeys).map
      (fun k => (.createForeignKeys, .createForeignKey k)) ++
    p.alterations.foreignKeys.flatMap fun a =>
      [(.dropForeignKeys, p.dropForeignKey a.left), (.createForeignKeys, .createForeignKey a.right)]

def checksListed : List (Phase × Statement) :=
  (p.difference.checks.dropped.filter fun c => !p.drops c.table).map
      (fun c => (.dropChecks, dropCheck c)) ++
    (p.difference.checks.created.filter fun c => !p.creates c.table).map
      (fun c => (.createChecks, .createCheck c)) ++
    p.alterations.checks.flatMap fun a =>
      [(.dropChecks, dropCheck a.left), (.createChecks, .createCheck a.right)]

def viewListed (a : ViewAlteration) : Phase × Statement :=
  if (a.change .definition).isSome then (.createViews, .createView a.right true)
  else (.alterViews, .alterView a.right)

def viewsListed : List (Phase × Statement) :=
  p.difference.views.dropped.map (fun v => (.dropViews, .dropView v.name)) ++
    p.renames.views.map (fun r => (.renameViews, .renameView r.old.name r.new.name)) ++
    p.alterations.views.map viewListed ++
    p.difference.views.created.map (fun v => (.createViews, .createView v false))

/-- All statements as they are listed, kind by kind. -/
def listed : List (Phase × Statement) :=
  p.tablesListed ++ p.columnsListed ++ p.primaryKeysListed ++ p.indexesListed ++
    p.foreignKeysListed ++ p.checksListed ++ p.viewsListed

/-- The list of a phase. -/
def listOf (ph : Phase) : List Statement :=
  (p.listed.filter fun x => x.1 == ph).map (·.2)

/-! ## Every statement is listed under its own phase -/

open Statement (withPhase)

variable {p}

theorem tablesListed_eq : p.tablesListed = p.tableStatements.map withPhase := by
  simp only [tablesListed, tableStatements, List.map_append, List.map_map]
  rfl

theorem alterationListed_eq (a : ColumnAlteration) :
    p.alterationListed a = (p.alterColumn a).withPhase := by
  unfold alterationListed alterColumn
  split <;> rfl

theorem columnsListed_eq : p.columnsListed = p.columnStatements.map withPhase := by
  simp only [columnsListed, columnStatements, List.map_append, List.map_map,
    funext alterationListed_eq]
  rfl

theorem rebuildListed_eq (a : PrimaryKeyAlteration) :
    p.rebuildListed a = (p.rebuild a).map withPhase := by
  unfold rebuildListed rebuild
  cases a.change .columns with
  | none => rfl
  | some d =>
    simp only [List.map_flatMap, List.map_cons]
    congr 1
    funext k
    cases p.target.foreignKeys.get? (.scoped k.table k.name) <;> rfl

/-- A key that rides on its column is declared by an altered column. -/
theorem phase_of_createPrimaryKey? {k : PrimaryKey} {s : Statement}
    (hr : p.target.ridesOnColumn k = true) (h : p.createPrimaryKey? k = some s) :
    s.phase = .alterColumns := by
  obtain ⟨hno, -⟩ | ⟨-, _, _, _, -, -, -, -, rfl⟩ := createPrimaryKey?_eq_some_iff.1 h
  · rw [hr] at hno
    cases hno
  · rfl

theorem keyListed?_eq (k : PrimaryKey) :
    p.keyListed? k = (p.createPrimaryKey? k).map withPhase := by
  unfold keyListed?
  split
  next hr =>
    cases h : p.createPrimaryKey? k with
    | none => rfl
    | some s =>
      rw [Option.map_some, Option.map_some, withPhase, phase_of_createPrimaryKey? hr h]
  next hr =>
    rw [createPrimaryKey?, if_neg hr]
    rfl

theorem keysDroppedListed_eq (ks : List PrimaryKey) :
    (ks.filter fun k => !p.source.ridesOnColumn k).map
        (fun k => (Phase.dropPrimaryKeys, Statement.dropPrimaryKey k)) =
      (ks.filterMap p.dropPrimaryKey?).map withPhase := by
  rw [List.map_filterMap, ← List.filterMap_eq_map, List.filterMap_filter]
  refine List.filterMap_congr fun k _ => ?_
  unfold dropPrimaryKey?
  cases p.source.ridesOnColumn k <;> rfl

theorem primaryKeysListed_eq :
    p.primaryKeysListed = p.primaryKeyStatements.map withPhase := by
  simp only [primaryKeysListed, primaryKeyStatements, List.map_append, List.map_flatMap,
    List.map_filterMap, keysDroppedListed_eq, funext rebuildListed_eq, funext keyListed?_eq]

theorem indexesListed_eq : p.indexesListed = p.indexStatements.map withPhase := by
  simp only [indexesListed, indexStatements, List.map_append, List.map_map, List.map_flatMap]
  rfl

theorem foreignKeysListed_eq : p.foreignKeysListed = p.foreignKeyStatements.map withPhase := by
  simp only [foreignKeysListed, foreignKeyStatements, List.map_append, List.map_map,
    List.map_flatMap]
  rfl

theorem checksListed_eq : p.checksListed = p.checkStatements.map withPhase := by
  simp only [checksListed, checkStatements, List.map_append, List.map_map, List.map_flatMap]
  rfl

theorem viewListed_eq (a : ViewAlteration) : viewListed a = (alterView a).withPhase := by
  unfold viewListed alterView
  split <;> rfl

theorem viewsListed_eq : p.viewsListed = p.viewStatements.map withPhase := by
  simp only [viewsListed, viewStatements, List.map_append, List.map_map, funext viewListed_eq]
  rfl

/-- **Every statement is listed under its own phase.** -/
theorem listed_eq : p.listed = p.scheduled.map withPhase := by
  simp only [listed, scheduled, List.map_append, tablesListed_eq, columnsListed_eq,
    primaryKeysListed_eq, indexesListed_eq, foreignKeysListed_eq, checksListed_eq, viewsListed_eq]

/-! ## Joined lists -/

theorem listOf_eq (ph : Phase) : p.listOf ph = p.scheduled.filter fun s => s.phase == ph := by
  rw [listOf, listed_eq, List.filter_map, List.map_map]
  exact List.map_id _

/-- **Joined lists are sorted statements.** -/
theorem statements_eq_joined (p : PlanInput) :
    p.statements = Statement.distinct (Phase.all.flatMap p.listOf) := by
  rw [funext listOf_eq]
  rfl

theorem mem_listed {ph : Phase} {s : Statement} :
    (ph, s) ∈ p.listed ↔ ph = s.phase ∧ s ∈ p.statements := by
  rw [listed_eq, mem_statements, List.mem_map]
  constructor
  · intro h
    obtain ⟨t, ht, e⟩ := h
    obtain ⟨rfl, rfl⟩ := Prod.mk.inj e
    exact ⟨rfl, ht⟩
  · intro h
    obtain ⟨rfl, hs⟩ := h
    exact ⟨s, hs, rfl⟩

/-- **The statements of a plan are in order.** They are the joined lists of the phases without
repetitions, and what is listed is there, under its phase. -/
theorem carried_out_in_order (p : PlanInput) :
    p.statements = Statement.distinct (Phase.all.flatMap p.listOf) ∧
      p.statements.Nodup ∧
      p.statements.Pairwise (fun s t => s.phase.rank ≤ t.phase.rank) ∧
      ∀ ph s, (ph, s) ∈ p.listed ↔ ph = s.phase ∧ s ∈ p.statements :=
  ⟨p.statements_eq_joined, p.nodup_statements, Statement.pairwise_ordered _, fun _ _ => mem_listed⟩

end PlanInput

end SchemaEvolution
