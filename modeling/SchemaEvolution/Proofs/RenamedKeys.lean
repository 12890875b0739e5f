import SchemaEvolution.Plan.Schedule
import SchemaEvolution.Rename.Propagate

/-!
# Keys of renames

What is done with renames depends on the old and the new keys only (`renamedKeys`), not on what else
the renamed rows say. Renames with equal keys are carried through catalogs in the same way
(`columnNames_congr`, `viewNames_congr`), are planned in the same way
(`PlanInput.statements_congr`) and are recorded as the same entries (`Renames.entries_congr`).
-/

namespace SchemaEvolution

section

variable {α β : Type} [Row α]

/-- The old and the new keys of renames. -/
def renamedKeys (rs : List (Renaming α)) : List (Key × Key) :=
  rs.map fun q => (Row.key q.old, Row.key q.new)

/-- **What depends on keys only** is the same for renames with equal keys. -/
theorem map_congr_renamedKeys {f : Renaming α → β}
    (hf : ∀ p q : Renaming α, Row.key p.old = Row.key q.old → Row.key p.new = Row.key q.new →
      f p = f q) :
    ∀ {ps qs : List (Renaming α)}, renamedKeys ps = renamedKeys qs → ps.map f = qs.map f
  | [], [], _ => rfl
  | [], _ :: _, h => by cases h
  | _ :: _, [], h => by cases h
  | p :: ps, q :: qs, h => by
    obtain ⟨hpq, h⟩ := List.cons.inj h
    obtain ⟨hold, hnew⟩ := Prod.mk.inj hpq
    rw [List.map_cons, List.map_cons, hf p q hold hnew, map_congr_renamedKeys hf h]

theorem renamedKeys_append (ps qs : List (Renaming α)) :
    renamedKeys (ps ++ qs) = renamedKeys ps ++ renamedKeys qs :=
  List.map_append

end

/-! ## Tables, columns and views -/

theorem tables_eq_of_renamedKeys {ps qs : List (Renaming Table)}
    (h : renamedKeys ps = renamedKeys qs) : ps = qs := by
  have heq (p q : Renaming Table) (hold : Row.key p.old = Row.key q.old)
      (hnew : Row.key p.new = Row.key q.new) : id p = id q := by
    obtain ⟨⟨a⟩, ⟨b⟩⟩ := p
    cases Key.single.inj hold
    cases Key.single.inj hnew
    rfl
  have hid := map_congr_renamedKeys heq h
  rwa [List.map_id, List.map_id] at hid

theorem columnNames_congr {ps qs : List (Renaming Column)} (h : renamedKeys ps = renamedKeys qs) :
    Propagate.columnNames ps = Propagate.columnNames qs := by
  have htables : ps.map (·.old.table) = qs.map (·.old.table) :=
    map_congr_renamedKeys (fun _ _ hold _ => (Key.scoped.inj hold).1) h
  have hnames : ps.map (fun q => (q.old.table, q.old.name, q.new.name)) =
      qs.map fun q => (q.old.table, q.old.name, q.new.name) :=
    map_congr_renamedKeys (fun _ _ hold hnew => by
      rw [(Key.scoped.inj hold).1, (Key.scoped.inj hold).2, (Key.scoped.inj hnew).2]) h
  have hof (rs : List (Renaming Column)) (t : String) :
      (rs.filter (·.old.table == t)).map (fun q => (q.old.name, q.new.name)) =
        ((rs.map fun q => (q.old.table, q.old.name, q.new.name)).filter (·.1 == t)).map (·.2) := by
    rw [List.filter_map, List.map_map]
    rfl
  simp only [Propagate.columnNames, htables, hof, hnames]

theorem viewNames_congr {ps qs : List (Renaming View)} (h : renamedKeys ps = renamedKeys qs) :
    Propagate.viewNames ps = Propagate.viewNames qs :=
  map_congr_renamedKeys (fun _ _ hold hnew => by rw [Key.single.inj hold, Key.single.inj hnew]) h

/-! ## Whole runs -/

/-- The renames of two runs have equal keys. -/
structure Renames.SameKeys (r s : Renames) : Prop where
  tables : renamedKeys r.tables = renamedKeys s.tables
  columns : renamedKeys r.columns = renamedKeys s.columns
  views : renamedKeys r.views = renamedKeys s.views

variable {r s : Renames}

theorem Renames.entries_congr (h : r.SameKeys s) : r.entries = s.entries := by
  rw [entries, entries, tables_eq_of_renamedKeys h.tables,
    map_congr_renamedKeys (f := fun c : Renaming Column => c.old.path ++ "->" ++ c.new.path)
      (fun _ _ hold hnew => by
        rw [Column.path, Column.path, Column.path, Column.path, (Key.scoped.inj hold).1,
          (Key.scoped.inj hold).2, (Key.scoped.inj hnew).1, (Key.scoped.inj hnew).2]) h.columns,
    map_congr_renamedKeys (f := fun v : Renaming View => v.old.name ++ "->" ++ v.new.name)
      (fun _ _ hold hnew => by rw [Key.single.inj hold, Key.single.inj hnew]) h.views]

/-- **Renames with equal keys are planned in the same way.** -/
theorem PlanInput.statements_congr {p : PlanInput} (h : r.SameKeys s) :
    statements { p with renames := r } = statements { p with renames := s } := by
  have hcolumns :
      r.columns.map (fun q => Statement.renameColumn q.new.table q.old.name q.new.name) =
        s.columns.map fun q => .renameColumn q.new.table q.old.name q.new.name :=
    map_congr_renamedKeys (fun _ _ hold hnew => by
      rw [(Key.scoped.inj hold).2, (Key.scoped.inj hnew).1, (Key.scoped.inj hnew).2]) h.columns
  have hviews : r.views.map (fun q => Statement.renameView q.old.name q.new.name) =
      s.views.map fun q => .renameView q.old.name q.new.name :=
    map_congr_renamedKeys
      (fun _ _ hold hnew => by rw [Key.single.inj hold, Key.single.inj hnew]) h.views
  obtain ⟨tables, columns, views⟩ := r
  obtain rfl := tables_eq_of_renamedKeys h.tables
  have hc : columnStatements { p with renames := ⟨s.tables, columns, views⟩ } =
      columnStatements { p with renames := s } := by
    simp only [columnStatements]
    rw [hcolumns]
    rfl
  have hv : viewStatements { p with renames := ⟨s.tables, columns, views⟩ } =
      viewStatements { p with renames := s } := by
    simp only [viewStatements]
    rw [hviews]
  rw [statements, statements, scheduled, scheduled, hc, hv]
  rfl

end SchemaEvolution
