import SchemaEvolution.Proofs.Renaming
import SchemaEvolution.Proofs.Returning

/-!
# What carrying renames does

**The source is relabelled**: every row that mentions a renamed table, column or view mentions it by
its new name, and nothing else changes.

**The target keeps everything but names**: foreign keys and indexes may take over the names that
they have in the database (`Catalog.SameButNames`).
-/

namespace SchemaEvolution

/-! ## Edits -/

section

variable {α β : Type} [Row α] {c d : Catalog} {s t : Sides} {part : Part α}

theorem returns_update {change : α → α} {selects : α → Bool} {upd : List α}
    (h : Returns (Edit.update part change selects) c upd d) :
    ∃ rows : Collection α,
      rows.rows = (part.get c).rows.map (fun x => if selects x then change x else x) ∧
        d = part.set rows c := by
  cases hu : (part.get c).update change selects with
  | error k =>
    have he : Id.run ((Edit.update part change selects).run c) =
        (.error (.update (Row.kind α) k), c) := by
      simp only [Edit.run, ExceptT.run, Edit.update, hu]
      rfl
    cases (show (_, _) = (_, _) from he.symm.trans h)
  | ok r =>
    obtain ⟨rows, upd'⟩ := r
    have he : Id.run ((Edit.update part change selects).run c) = (.ok upd', part.set rows c) := by
      simp only [Edit.run, ExceptT.run, Edit.update, hu]
      rfl
    cases (show (_, _) = (_, _) from he.symm.trans h)
    exact ⟨rows, (Collection.update_eq_ok_iff.1 hu).1, rfl⟩

theorem returns_update_of {change : α → α} {selects : α → Bool} {rows : Collection α}
    (h : rows.rows = (part.get c).rows.map fun x => if selects x then change x else x) :
    Returns (Edit.update part change selects) c
      (((part.get c).rows.filter selects).map change) (part.set rows c) := by
  have hu := Collection.update_eq_ok_iff.2 ⟨h, rfl⟩
  show Id.run ((Edit.update part change selects).run c) = _
  simp only [Edit.run, ExceptT.run, Edit.update, hu]
  rfl

theorem keeps_update {R : Catalog → Catalog → Prop} {change : α → α} {selects : α → Bool}
    (hr : ∀ c, R c c)
    (hs : ∀ (c : Catalog) (rows : Collection α),
      rows.rows = (part.get c).rows.map (fun x => if selects x then change x else x) →
        R c (part.set rows c)) :
    Keeps R (Edit.update part change selects) := by
  intro c
  cases hu : (part.get c).update change selects with
  | error k =>
    have he : (Id.run ((Edit.update part change selects).run c)).2 = c := by
      simp only [Edit.run, ExceptT.run, Edit.update, hu]
      rfl
    exact he.symm ▸ hr c
  | ok r =>
    obtain ⟨rows, upd⟩ := r
    have he : (Id.run ((Edit.update part change selects).run c)).2 = part.set rows c := by
      simp only [Edit.run, ExceptT.run, Edit.update, hu]
      rfl
    exact he.symm ▸ hs c rows (Collection.update_eq_ok_iff.1 hu).1

theorem returns_onSource {e : Edit β} {b : β}
    (h : Returns (SidesEdit.onSource e) s b t) :
    Returns e s.source b t.source ∧ t.target = s.target := by
  have h' : ((Id.run (e.run s.source)).1, { s with source := (Id.run (e.run s.source)).2 }) =
      (Except.ok b, t) := h
  obtain ⟨h₁, rfl⟩ := Prod.mk.inj h'
  exact ⟨Prod.ext h₁ rfl, rfl⟩

theorem returns_onTarget {e : Edit β} {b : β}
    (h : Returns (SidesEdit.onTarget e) s b t) :
    Returns e s.target b t.target ∧ t.source = s.source := by
  have h' : ((Id.run (e.run s.target)).1, { s with target := (Id.run (e.run s.target)).2 }) =
      (Except.ok b, t) := h
  obtain ⟨h₁, rfl⟩ := Prod.mk.inj h'
  exact ⟨Prod.ext h₁ rfl, rfl⟩

theorem returns_onSource_of {e : Edit β} {b : β} (h : Returns e s.source b d) :
    Returns (SidesEdit.onSource e) s b { s with source := d } := by
  show ((Id.run (e.run s.source)).1, { s with source := (Id.run (e.run s.source)).2 }) = _
  rw [show Id.run (e.run s.source) = (.ok b, d) from h]

theorem raises_onSource_of {e : Edit β} {k : KeyClash} (h : Raises e s.source k d) :
    Raises (SidesEdit.onSource e) s k { s with source := d } := by
  show ((Id.run (e.run s.source)).1, { s with source := (Id.run (e.run s.source)).2 }) = _
  rw [show Id.run (e.run s.source) = (.error k, d) from h]

theorem returns_onTarget_of {e : Edit β} {b : β} (h : Returns e s.target b d) :
    Returns (SidesEdit.onTarget e) s b { s with target := d } := by
  show ((Id.run (e.run s.target)).1, { s with target := (Id.run (e.run s.target)).2 }) = _
  rw [show Id.run (e.run s.target) = (.ok b, d) from h]

end

/-! ## Names of constraints -/

/-- A foreign key without its name. -/
def ForeignKey.unnamed (k : ForeignKey) : ForeignKey :=
  { k with name := "" }

/-- An index without its name. -/
def Index.unnamed (i : Index) : Index :=
  { i with name := "" }

/-- The catalogs differ in names of foreign keys and indexes at most. -/
structure Catalog.SameButNames (c d : Catalog) : Prop where
  tables : d.tables = c.tables
  columns : d.columns = c.columns
  primaryKeys : d.primaryKeys = c.primaryKeys
  foreignKeys :
    d.foreignKeys.rows.map ForeignKey.unnamed = c.foreignKeys.rows.map ForeignKey.unnamed
  indexes : d.indexes.rows.map Index.unnamed = c.indexes.rows.map Index.unnamed
  checks : d.checks = c.checks
  views : d.views = c.views
  viewColumns : d.viewColumns = c.viewColumns

namespace Catalog.SameButNames

variable {c d e : Catalog}

theorem refl (c : Catalog) : SameButNames c c := by
  constructor <;> rfl

theorem trans (h : SameButNames c d) (h' : SameButNames d e) : SameButNames c e where
  tables := h'.tables.trans h.tables
  columns := h'.columns.trans h.columns
  primaryKeys := h'.primaryKeys.trans h.primaryKeys
  foreignKeys := h'.foreignKeys.trans h.foreignKeys
  indexes := h'.indexes.trans h.indexes
  checks := h'.checks.trans h.checks
  views := h'.views.trans h.views
  viewColumns := h'.viewColumns.trans h.viewColumns

end Catalog.SameButNames

namespace Propagate

open Catalog (SameButNames)

theorem keeps_foreignKey_name (name : String) (selects : ForeignKey → Bool) :
    Keeps SameButNames (Edit.update .foreignKeys (fun k => { k with name }) selects) := by
  refine keeps_update SameButNames.refl fun c rows hr => ?_
  refine { SameButNames.refl c with foreignKeys := ?_ }
  show rows.rows.map ForeignKey.unnamed = _
  rw [hr, List.map_map]
  refine List.map_congr_left fun k _ => ?_
  by_cases h : selects k <;> simp [h, ForeignKey.unnamed]

theorem keeps_index_name (name : String) (selects : Index → Bool) :
    Keeps SameButNames (Edit.update .indexes (fun i => { i with name }) selects) := by
  refine keeps_update SameButNames.refl fun c rows hr => ?_
  refine { SameButNames.refl c with indexes := ?_ }
  show rows.rows.map Index.unnamed = _
  rw [hr, List.map_map]
  refine List.map_congr_left fun i _ => ?_
  by_cases h : selects i <;> simp [h, Index.unnamed]

theorem keeps_done : Keeps SameButNames (pure () : Edit Unit) :=
  keeps_pure SameButNames.refl ()

theorem keeps_then {β γ : Type} {x : Edit β} {f : β → Edit γ} (hx : Keeps SameButNames x)
    (hf : ∀ b, Keeps SameButNames (f b)) : Keeps SameButNames (x >>= f) :=
  keeps_bind (fun _ _ _ h h' => h.trans h') hx hf

theorem keeps_each {β : Type} {f : β → Edit Unit} (hf : ∀ b, Keeps SameButNames (f b))
    (bs : List β) : Keeps SameButNames (bs.forM f) :=
  keeps_forM SameButNames.refl (fun _ _ _ h h' => h.trans h') hf bs

theorem keeps_keepForeignKeyName (k : ForeignKey) : Keeps SameButNames (keepForeignKeyName k) := by
  unfold keepForeignKeyName
  refine keeps_then (fun c => SameButNames.refl c) fun target => ?_
  dsimp only
  split
  · exact keeps_done
  · split
    · exact keeps_then (keeps_foreignKey_name _ _) fun _ => keeps_done
    · exact keeps_done

theorem keeps_keepIndexName (i : Index) : Keeps SameButNames (keepIndexName i) := by
  unfold keepIndexName
  split
  · exact keeps_done
  · refine keeps_then (fun c => SameButNames.refl c) fun target => ?_
    split
    · exact keeps_done
    · split
      · exact keeps_then (keeps_index_name _ _) fun _ => keeps_done
      · exact keeps_done

/-- **Keeping names changes nothing but names.** -/
theorem keeps_keepNames (ks : List ForeignKey) (is : List Index) :
    Keeps SameButNames (keepNames ks is) :=
  keeps_then (keeps_each keeps_keepForeignKeyName ks) fun _ => keeps_each keeps_keepIndexName is

/-! ## Tables -/

theorem selected_eq {α : Type} {selected : Bool} {x y z : α} (h : selected = true → y = z)
    (hn : selected = false → z = x) : (if selected then y else x) = z := by
  cases selected with
  | true => exact h rfl
  | false => exact (hn rfl).symm

section

variable {m : NameMap} {table : String} {c d : Catalog} {s t : Sides}

section Rows

theorem table_ofTables (x : Table) :
    (if m.renames x.name then { x with name := m.apply x.name } else x) =
      relabel (.ofTables m) x :=
  selected_eq (fun _ => rfl) fun h =>
    congrArg (fun name => { x with name }) (NameMap.apply_of_renames_eq_false h)

theorem column_ofTables (x : Column) :
    (if m.renames x.table then { x with table := m.apply x.table } else x) =
      relabel (.ofTables m) x :=
  selected_eq (fun _ => rfl) fun h =>
    congrArg (fun table => { x with table }) (NameMap.apply_of_renames_eq_false h)

theorem check_ofTables (x : Check) :
    (if m.renames x.table then { x with table := m.apply x.table } else x) =
      relabel (.ofTables m) x :=
  selected_eq (fun _ => rfl) fun h =>
    congrArg (fun table => { x with table }) (NameMap.apply_of_renames_eq_false h)

theorem primaryKey_ofTables (x : PrimaryKey) :
    (if m.renames x.table then { x with table := m.apply x.table } else x) =
      relabel (.ofTables m) x := by
  refine selected_eq (fun _ => ?_) fun h => ?_
  · simp [relabel, Relabelling.ofTables]
  · simp [relabel, Relabelling.ofTables, NameMap.apply_of_renames_eq_false h]

theorem index_ofTables (x : Index) :
    (if m.renames x.table then { x with table := m.apply x.table } else x) =
      relabel (.ofTables m) x := by
  refine selected_eq (fun _ => ?_) fun h => ?_
  · simp [relabel, Relabelling.ofTables, IndexPart.mapColumn_id]
  · simp [relabel, Relabelling.ofTables, IndexPart.mapColumn_id,
      NameMap.apply_of_renames_eq_false h]

theorem foreignKey_ofTables (x : ForeignKey) :
    (if m.renames x.table || m.renames x.target then
      { x with table := m.apply x.table, target := m.apply x.target } else x) =
      relabel (.ofTables m) x := by
  refine selected_eq (fun _ => ?_) fun h => ?_
  · simp [relabel, Relabelling.ofTables]
  · obtain ⟨h₁, h₂⟩ := Bool.or_eq_false_iff.1 h
    simp [relabel, Relabelling.ofTables, NameMap.apply_of_renames_eq_false h₁,
      NameMap.apply_of_renames_eq_false h₂]

end Rows

/-- **What belongs to tables, and what refers to them, follows them.** -/
theorem returns_retarget {rows : Collection Table} {touched : Catalog.Retargeted}
    (hr : rows.rows = c.tables.rows.map (relabel (.ofTables m)))
    (h : Returns (Catalog.retarget m) { c with tables := rows } touched d) :
    c.IsRelabelled (.ofTables m) d := by
  unfold Catalog.retarget at h
  split at h
  · rename_i hm
    rw [List.isEmpty_iff] at hm
    subst hm
    obtain ⟨-, rfl⟩ := returns_pure_iff.1 h
    exact { Catalog.IsRelabelled.refl c with tables := hr }
  · obtain ⟨_, _, h₁, h⟩ := returns_bind_iff.1 h
    obtain ⟨_, _, h₂, h⟩ := returns_bind_iff.1 h
    obtain ⟨_, _, h₃, h⟩ := returns_bind_iff.1 h
    obtain ⟨_, _, h₄, h⟩ := returns_bind_iff.1 h
    obtain ⟨_, _, h₅, h⟩ := returns_bind_iff.1 h
    obtain ⟨-, rfl⟩ := returns_pure_iff.1 h
    obtain ⟨_, hc, rfl⟩ := returns_update h₁
    obtain ⟨_, hp, rfl⟩ := returns_update h₂
    obtain ⟨_, hi, rfl⟩ := returns_update h₃
    obtain ⟨_, hk, rfl⟩ := returns_update h₄
    obtain ⟨_, hf, rfl⟩ := returns_update h₅
    exact {
      tables := hr
      columns := hc.trans (List.map_congr_left fun x _ => column_ofTables x)
      primaryKeys := hp.trans (List.map_congr_left fun x _ => primaryKey_ofTables x)
      foreignKeys := hf.trans (List.map_congr_left fun x _ => foreignKey_ofTables x)
      indexes := hi.trans (List.map_congr_left fun x _ => index_ofTables x)
      checks := hk.trans (List.map_congr_left fun x _ => check_ofTables x)
      views := (map_relabel_eq_self fun _ => rfl).symm
      viewColumns := (map_relabel_eq_self fun _ => rfl).symm }

/-- **Renamed tables**: the source is relabelled, the target keeps everything but names. -/
theorem returns_renameTables {rs : List (Renaming Table)}
    (h : Returns (renameTables rs) s () t) :
    s.source.IsRelabelled (.ofTableRenames rs) t.source ∧ s.target.SameButNames t.target := by
  obtain ⟨touched, u, h₁, h₂⟩ := returns_bind_iff.1 h
  obtain ⟨h₁, hu⟩ := returns_onSource h₁
  obtain ⟨h₂, ht⟩ := returns_onTarget h₂
  obtain ⟨_, _, h₃, h₄⟩ := returns_bind_iff.1 h₁
  obtain ⟨rows, hr, rfl⟩ := returns_update h₃
  refine ⟨?_, hu ▸ h₂.of_keeps (keeps_keepNames _ _)⟩
  rw [ht]
  exact returns_retarget (hr.trans (List.map_congr_left fun x _ => table_ofTables x)) h₄

/-! ## Columns -/

theorem column_ofColumns (table : String) (m : NameMap) :
    (Relabelling.ofColumns table m).column table = m.apply := by
  funext name
  exact if_pos rfl

theorem column_ofColumns_of_ne {t : String} (h : t ≠ table) (name : String) :
    (Relabelling.ofColumns table m).column t name = name :=
  if_neg h

theorem map_column_of_untouched {t : String} {names : List String}
    (h : (t == table && names.any m.renames) = false) :
    names.map ((Relabelling.ofColumns table m).column t) = names := by
  refine (List.map_congr_left fun name hn => ?_).trans (List.map_id' _)
  by_cases ht : t = table
  · subst ht
    rw [beq_self_eq_true, Bool.true_and, List.any_eq_false] at h
    rw [column_ofColumns]
    exact NameMap.apply_of_renames_eq_false (by simpa using h name hn)
  · exact column_ofColumns_of_ne ht name

section Rows

theorem column_of_columns (x : Column) :
    (if x.table == table && m.renames x.name then { x with name := m.apply x.name } else x) =
      relabel (.ofColumns table m) x := by
  refine selected_eq (fun h => ?_) fun h => ?_
  · obtain rfl := eq_of_beq (Bool.and_eq_true_iff.1 h).1
    exact congrArg (fun f => { x with name := f x.name }) (column_ofColumns x.table m).symm
  · have hn : [x.name].map ((Relabelling.ofColumns table m).column x.table) = [x.name] :=
      map_column_of_untouched (by simpa using h)
    exact congrArg (fun name => { x with name }) (List.singleton_inj.1 hn)

theorem primaryKey_of_columns (x : PrimaryKey) :
    (if x.table == table && x.columns.any m.renames then
      { x with columns := x.columns.map m.apply } else x) = relabel (.ofColumns table m) x := by
  refine selected_eq (fun h => ?_) fun h => ?_
  · obtain rfl := eq_of_beq (Bool.and_eq_true_iff.1 h).1
    exact congrArg (fun f => { x with columns := x.columns.map f })
      (column_ofColumns x.table m).symm
  · exact congrArg (fun columns => { x with columns }) (map_column_of_untouched h)

theorem index_of_columns (x : Index) :
    (if x.table == table then { x with parts := x.parts.map (·.mapColumn m.apply) } else x) =
      relabel (.ofColumns table m) x := by
  refine selected_eq (fun h => ?_) fun h => ?_
  · obtain rfl := eq_of_beq h
    exact congrArg (fun f => { x with parts := x.parts.map (IndexPart.mapColumn f) })
      (column_ofColumns x.table m).symm
  · have hf : (Relabelling.ofColumns table m).column x.table = fun name => name :=
      funext (column_ofColumns_of_ne (ne_of_beq_false h))
    have hp : x.parts.map (IndexPart.mapColumn fun name => name) = x.parts := by
      rw [IndexPart.mapColumn_id, List.map_id]
    exact (congrArg (fun f => { x with parts := x.parts.map (IndexPart.mapColumn f) }) hf).trans
      (congrArg (fun parts => { x with parts }) hp)

theorem relabel_owned (k : ForeignKey) :
    (if k.table == table && k.columns.any m.renames then
      { k with columns := k.columns.map m.apply } else k) =
      { k with columns := k.columns.map ((Relabelling.ofColumns table m).column k.table) } := by
  refine selected_eq (fun h => ?_) fun h => ?_
  · obtain rfl := eq_of_beq (Bool.and_eq_true_iff.1 h).1
    rw [column_ofColumns]
  · rw [map_column_of_untouched h]

theorem relabel_referring (k : ForeignKey) :
    (if k.target == table && k.targetColumns.any m.renames then
      { k with targetColumns := k.targetColumns.map m.apply } else k) =
      { k with
        targetColumns :=
          k.targetColumns.map ((Relabelling.ofColumns table m).column k.target) } := by
  refine selected_eq (fun h => ?_) fun h => ?_
  · obtain rfl := eq_of_beq (Bool.and_eq_true_iff.1 h).1
    rw [column_ofColumns]
  · rw [map_column_of_untouched h]

/-- The columns on either side of a foreign key are updated one after the other. -/
theorem foreignKey_of_columns (k : ForeignKey) :
    ((fun k => if k.target == table && k.targetColumns.any m.renames then
        { k with targetColumns := k.targetColumns.map m.apply } else k) ∘
      fun k => if k.table == table && k.columns.any m.renames then
        { k with columns := k.columns.map m.apply } else k) k =
      relabel (.ofColumns table m) k := by
  rw [Function.comp_apply, relabel_owned k, relabel_referring]
  rfl

theorem foreignKeys_of_columns (ks : List ForeignKey) :
    (ks.map fun k => if k.table == table && k.columns.any m.renames then
        { k with columns := k.columns.map m.apply } else k).map
      (fun k => if k.target == table && k.targetColumns.any m.renames then
        { k with targetColumns := k.targetColumns.map m.apply } else k) =
      ks.map (relabel (.ofColumns table m)) := by
  rw [List.map_map]
  exact List.map_congr_left fun k _ => foreignKey_of_columns k

end Rows

/-- **Wherever a row lists columns of the table, it lists them by their new names.** -/
theorem returns_relabelColumns {touched : Catalog.Retargeted}
    (h : Returns (relabelColumns table m) c touched d) : c.IsRelabelled (.ofColumns table m) d := by
  obtain ⟨_, _, h₁, h⟩ := returns_bind_iff.1 h
  obtain ⟨_, _, h₂, h⟩ := returns_bind_iff.1 h
  obtain ⟨_, _, h₃, h⟩ := returns_bind_iff.1 h
  obtain ⟨_, _, h₄, h⟩ := returns_bind_iff.1 h
  obtain ⟨_, _, h₅, h⟩ := returns_bind_iff.1 h
  obtain ⟨-, rfl⟩ := returns_pure_iff.1 h
  obtain ⟨_, hc, rfl⟩ := returns_update h₁
  obtain ⟨_, hi, rfl⟩ := returns_update h₂
  obtain ⟨_, hp, rfl⟩ := returns_update h₃
  obtain ⟨owned, ho, rfl⟩ := returns_update h₄
  obtain ⟨_, hf, rfl⟩ := returns_update h₅
  exact {
    tables := (map_relabel_eq_self fun _ => rfl).symm
    columns := hc.trans (List.map_congr_left fun x _ => column_of_columns x)
    primaryKeys := hp.trans (List.map_congr_left fun x _ => primaryKey_of_columns x)
    foreignKeys := hf.trans ((congrArg (List.map _) ho).trans (foreignKeys_of_columns _))
    indexes := hi.trans (List.map_congr_left fun x _ => index_of_columns x)
    checks := (map_relabel_eq_self fun _ => rfl).symm
    views := (map_relabel_eq_self fun _ => rfl).symm
    viewColumns := (map_relabel_eq_self fun _ => rfl).symm }

/-- New names for the columns of one table after the other. -/
def inTurn : List (String × NameMap) → Relabelling
  | [] => .none
  | (table, m) :: groups => (Relabelling.ofColumns table m).andThen (inTurn groups)

theorem table_inTurn : ∀ groups : List (String × NameMap), (inTurn groups).table = id
  | [] => rfl
  | _ :: groups => table_inTurn groups

theorem view_inTurn : ∀ groups : List (String × NameMap), (inTurn groups).view = id
  | [] => rfl
  | _ :: groups => view_inTurn groups

theorem column_inTurn {f : String → NameMap} {t n : String} :
    ∀ {ts : List String}, ts.Nodup →
      (inTurn (ts.map fun t => (t, f t))).column t n = if t ∈ ts then (f t).apply n else n
  | [], _ => (if_neg (List.not_mem_nil)).symm
  | u :: us, h => by
    obtain ⟨hu, hus⟩ := List.nodup_cons.1 h
    show (inTurn _).column t ((Relabelling.ofColumns u (f u)).column t n) = _
    rw [column_inTurn hus]
    by_cases htu : t = u
    · subst htu
      rw [if_neg hu, if_pos (List.mem_cons_self ..), column_ofColumns]
    · rw [column_ofColumns_of_ne htu]
      simp [htu]

/-- Each table has its own columns, so it makes no difference that the tables take turns. -/
theorem inTurn_columnNames (rs : List (Renaming Column)) :
    inTurn (columnNames rs) = .ofColumnRenames rs := by
  have hn : ((rs.map (·.old.table)).eraseDups.mergeSort fun a b => a ≤ b).Nodup :=
    (List.mergeSort_perm _ _).nodup_iff.2 (nodup_eraseDups _)
  refine Relabelling.ext (table_inTurn _) (funext fun t => funext fun n => ?_) (view_inTurn _)
  refine (column_inTurn hn).trans ?_
  split
  · rfl
  · rename_i ht
    have he : Relabelling.columnNames rs t = [] := by
      rw [Relabelling.columnNames, List.map_eq_nil_iff, List.filter_eq_nil_iff]
      intro r hr
      simp only [List.mem_mergeSort, List.mem_eraseDups, List.mem_map, not_exists, not_and] at ht
      simpa using ht r hr
    show n = (Relabelling.columnNames rs t).apply n
    rw [he]
    rfl

theorem returns_renameGroups : ∀ {groups : List (String × NameMap)} {s : Sides},
    Returns (groups.forM fun (table, m) => do
      let touched ← SidesEdit.onSource (relabelColumns table m)
      SidesEdit.onTarget (keepNames touched.foreignKeys touched.indexes)) s () t →
      s.source.IsRelabelled (inTurn groups) t.source ∧ s.target.SameButNames t.target
  | [], s, h => by
    obtain ⟨-, rfl⟩ := returns_pure_iff.1 h
    exact ⟨.refl _, .refl _⟩
  | (table, m) :: groups, s, h => by
    obtain ⟨_, u, h₁, h₂⟩ := returns_bind_iff.1 h
    obtain ⟨touched, v, h₃, h₄⟩ := returns_bind_iff.1 h₁
    obtain ⟨h₃, hv⟩ := returns_onSource h₃
    obtain ⟨h₄, hu⟩ := returns_onTarget h₄
    obtain ⟨hs, ht⟩ := returns_renameGroups h₂
    rw [hu] at hs
    exact ⟨(returns_relabelColumns h₃).trans hs,
      (hv ▸ h₄.of_keeps (keeps_keepNames _ _)).trans ht⟩

/-- **Renamed columns**: the source is relabelled, the target keeps everything but names. -/
theorem returns_renameColumns {rs : List (Renaming Column)}
    (h : Returns (renameColumns rs) s () t) :
    s.source.IsRelabelled (.ofColumnRenames rs) t.source ∧ s.target.SameButNames t.target := by
  rw [← inTurn_columnNames]
  exact returns_renameGroups h

/-! ## Views -/

theorem view_ofViews (x : View) :
    (if m.renames x.name then { x with name := m.apply x.name } else x) = relabel (.ofViews m) x :=
  selected_eq (fun _ => rfl) fun h =>
    congrArg (fun name => { x with name }) (NameMap.apply_of_renames_eq_false h)

theorem viewColumn_ofViews (x : ViewColumn) :
    (if m.renames x.view then { x with view := m.apply x.view } else x) = relabel (.ofViews m) x :=
  selected_eq (fun _ => rfl) fun h =>
    congrArg (fun view => { x with view }) (NameMap.apply_of_renames_eq_false h)

/-- **Renamed views**: the source is relabelled, and the target stays. -/
theorem returns_renameViews {rs : List (Renaming View)} (h : Returns (renameViews rs) s () t) :
    s.source.IsRelabelled (.ofViewRenames rs) t.source ∧ t.target = s.target := by
  unfold renameViews at h
  obtain ⟨h, ht⟩ := returns_onSource h
  refine ⟨?_, ht⟩
  obtain ⟨_, _, h₁, h⟩ := returns_bind_iff.1 h
  obtain ⟨_, _, h₂, h⟩ := returns_bind_iff.1 h
  obtain ⟨-, he⟩ := returns_pure_iff.1 h
  rw [← he]
  obtain ⟨_, hv, rfl⟩ := returns_update h₁
  obtain ⟨_, hc, rfl⟩ := returns_update h₂
  constructor
  case views => exact hv.trans (List.map_congr_left fun x _ => view_ofViews x)
  case viewColumns => exact hc.trans (List.map_congr_left fun x _ => viewColumn_ofViews x)
  all_goals refine (map_relabel_eq_self fun x => ?_).symm
  case tables | columns | checks => rfl
  case primaryKeys | foreignKeys => simp [relabel, Relabelling.ofViewRenames, Relabelling.ofViews]
  case indexes =>
    simp [relabel, Relabelling.ofViewRenames, Relabelling.ofViews, IndexPart.mapColumn_id]

end

end Propagate

end SchemaEvolution
