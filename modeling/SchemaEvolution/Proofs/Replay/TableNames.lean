import SchemaEvolution.Proofs.Replay.Batch

/-!
# The names of tables while statements are carried out

Only statements that create, drop or rename a table change which names tables have
(`Statement.tablesAfter`). So the names after each statement can be read off the statements alone.

**What is read off is what replay leaves** (`Catalog.tableNames_replay?`): by one lemma for a
statement and an induction on the list.
-/

namespace SchemaEvolution

namespace Statement

/-- The names of tables after a statement. -/
def tablesAfter (names : List String) : Statement → List String
  | .createTable d => names ++ [d.name]
  | .dropTable t => names.filter (· != t)
  | .renameTable old new => names.map fun t => if t = old then new else t
  | _ => names

/-- The names of tables after statements that are carried out one after the other. -/
def tablesAfterAll (names : List String) (ss : List Statement) : List String :=
  ss.foldl tablesAfter names

variable {names : List String} {ss rs : List Statement}

theorem tablesAfterAll_append :
    tablesAfterAll names (ss ++ rs) = tablesAfterAll (tablesAfterAll names ss) rs :=
  List.foldl_append

theorem tablesAfterAll_eq_self (h : ∀ s ∈ ss, ∀ names, tablesAfter names s = names) :
    tablesAfterAll names ss = names := by
  induction ss with
  | nil => rfl
  | cons s ss ih =>
    have hs : tablesAfter names s = names := h s (List.mem_cons_self ..) names
    rw [tablesAfterAll, List.foldl_cons, hs]
    exact ih fun s' hs' => h s' (List.mem_cons_of_mem _ hs')

theorem mem_tablesAfterAll_of_creates {t : String} (h : ∀ s ∈ ss, ∃ d, .createTable d = s) :
    t ∈ tablesAfterAll names ss ↔ t ∈ names ∨ ∃ d, .createTable d ∈ ss ∧ d.name = t := by
  induction ss generalizing names with
  | nil => simp [tablesAfterAll]
  | cons s ss ih =>
    obtain ⟨d, rfl⟩ := h s (List.mem_cons_self ..)
    have hrest : t ∈ tablesAfterAll (names ++ [d.name]) ss ↔
        t ∈ names ++ [d.name] ∨ ∃ d, .createTable d ∈ ss ∧ d.name = t :=
      ih fun s' hs' => h s' (List.mem_cons_of_mem _ hs')
    rw [tablesAfterAll, List.foldl_cons]
    refine hrest.trans ?_
    simp only [List.mem_append, List.mem_cons, createTable.injEq]
    grind

end Statement

namespace Catalog

def tableNames (c : Catalog) : List String :=
  c.tables.rows.map (·.name)

variable {c d : Catalog} {s : Statement} {ss : List Statement} {t : String}

theorem mem_tableNames : t ∈ c.tableNames ↔ c.tables.hasKey (.single t) = true := by
  rw [tableNames, List.mem_map, Collection.hasKey_iff_exists]
  refine exists_congr fun x => and_congr_right fun _ => ?_
  exact ⟨congrArg Key.single, Key.single.inj⟩

theorem tableNames_createTable? {t : TableDefinition} (h : c.createTable? t = some d) :
    d.tableNames = c.tableNames ++ [t.name] := by
  simp only [createTable?, Option.bind_eq_bind, Option.bind_eq_some_iff] at h
  obtain ⟨tables, ht, _, -, _, -, _, -, _, -, _, -, hd⟩ := h
  obtain rfl := Option.some.inj hd
  rw [Collection.insertNew?, Option.ite_none_left_eq_some, Bool.not_eq_true,
    Option.some.injEq] at ht
  obtain ⟨hfree, rfl⟩ := ht
  rw [tableNames, Collection.rows_insert hfree, List.map_append]
  rfl

theorem tableNames_dropTable? (h : c.dropTable? t = some d) :
    d.tableNames = c.tableNames.filter (· != t) := by
  simp only [dropTable?, Option.bind_eq_bind, Option.bind_eq_some_iff] at h
  obtain ⟨tables, ht, hd⟩ := h
  obtain rfl := Option.some.inj hd
  rw [Collection.remove?, Option.ite_none_right_eq_some, Option.some.injEq] at ht
  obtain ⟨-, rfl⟩ := ht
  rw [tableNames, tableNames, List.filter_map]
  refine congrArg _ (List.filter_congr fun x _ => ?_)
  show (!decide (Key.single x.name = .single t)) = (x.name != t)
  simp [bne, BEq.beq]

theorem tableNames_rename? {α : Type} [Row α] {rows : Collection α} {old new : Key}
    {ρ : Relabelling} (h : c.rename? rows old new ρ = some d) :
    d.tableNames = c.tableNames.map ρ.table := by
  rw [rename?, Option.ite_none_right_eq_some] at h
  rw [tableNames, (isRelabelled_of_relabel? h.2).tables, tableNames, List.map_map, List.map_map]
  rfl

theorem tableNames_modify? {α : Type} [Row α] {part : Part α}
    {f : Collection α → Option (Collection α)} (hp : ∀ rows, (part.set rows c).tables = c.tables)
    (h : part.modify? f c = some d) : d.tableNames = c.tableNames := by
  obtain ⟨rows, -, rfl⟩ := Option.map_eq_some_iff.1 h
  rw [tableNames, hp, tableNames]

/-- **The names after one statement.** -/
theorem tableNames_perform? (h : c.perform? s = some d) :
    d.tableNames = s.tablesAfter c.tableNames := by
  cases s with
  | createTable => exact tableNames_createTable? h
  | dropTable => exact tableNames_dropTable? h
  | renameTable old new =>
    rw [tableNames_rename? h]
    exact List.map_congr_left fun t _ => NameMap.apply_singleton old new t
  | renameColumn | renameView =>
    rw [tableNames_rename? h]
    exact List.map_id _
  | dropConstraint _ _ sort =>
    cases sort <;>
    · rw [perform?] at h
      exact tableNames_modify? (fun _ => rfl) h
  | _ =>
    rw [perform?] at h
    exact tableNames_modify? (fun _ => rfl) h

/-- **The names after statements that succeed.** -/
theorem tableNames_replay? (h : c.replay? ss = some d) :
    d.tableNames = Statement.tablesAfterAll c.tableNames ss := by
  induction ss generalizing c with
  | nil =>
    cases h
    rfl
  | cons s ss ih =>
    obtain ⟨e, he, h⟩ := Option.bind_eq_some_iff.1 h
    rw [ih h, tableNames_perform? he]
    rfl

end Catalog

end SchemaEvolution
