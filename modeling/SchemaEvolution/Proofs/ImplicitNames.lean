import SchemaEvolution.Proofs.CarriedRenames

/-!
# Names that rows take over

While renames are carried through the catalogs, rows of the target take over names that the same
rows have in the database.

**What this may do to the target** (`Catalog.NamedAfter`): all rows stay, in their order, and
nothing but names changes. Only foreign keys and indexes without a name of their own are affected.
Each of them is called what such a row of the source is called in the same table.

**One edit** (`Propagate.after_carry`): an edit of the source lists rows of the source as it leaves
them, and these pass their names on. An edit that fails lists nothing, so the target stays.

**The whole run** (`Propagate.only_implicit_names`): renames of columns and views leave the labels
of rows of the source alone, that is their tables and names (`Sides.KeepsLabels`). So what names
were taken from is still there in the end, whether the renames succeed or not.
-/

namespace SchemaEvolution

open Nameable

/-! ## Labels -/

/-- What a row is known by: its table, its name, and whether the name is its own. -/
def Nameable.label {α : Type} [Row α] [Nameable α] (x : α) : String × String × Bool :=
  (table x, name x, isExplicit x)

namespace Collection

variable {α : Type} [Row α] [Nameable α] {source source' c d e : Collection α}

/-- The rows of `d` are those of `c` under certain names. A row that is called otherwise in `d` has
no name of its own, and is called what such a row of `source` is called in the same table. -/
def NamedAfter (c source d : Collection α) : Prop :=
  ∃ current : α → String, d.rows = c.rows.map (fun x => called (current x) x) ∧
    ∀ x ∈ c.rows, current x = name x ∨ isExplicit x = false ∧
      ∃ k ∈ source.rows, isExplicit k = false ∧ table k = table x ∧ current x = name k

namespace NamedAfter

theorem refl (c source : Collection α) : c.NamedAfter source c :=
  ⟨name, ((List.map_congr_left fun x _ => called_name x).trans (List.map_id' _)).symm,
    fun _ _ => .inl rfl⟩

theorem trans (h : c.NamedAfter source d) (h' : d.NamedAfter source e) : c.NamedAfter source e := by
  obtain ⟨first, hd, hfirst⟩ := h
  obtain ⟨second, he, hsecond⟩ := h'
  refine ⟨fun x => second (called (first x) x), ?_, fun x hx => ?_⟩
  · rw [he, hd, List.map_map]
    exact List.map_congr_left fun x _ => called_called ..
  · have hmem : called (first x) x ∈ d.rows := hd ▸ List.mem_map_of_mem hx
    rcases hsecond _ hmem with hkept | ⟨himplicit, k, hk, hki, hkt, hkn⟩
    · dsimp only
      rw [hkept, name_called]
      exact hfirst x hx
    · rw [isExplicit_called] at himplicit
      rw [table_called] at hkt
      exact .inr ⟨himplicit, k, hk, hki, hkt, hkn⟩

/-- Rows may be named after any others that are known by the same labels. -/
theorem of_labels (h : c.NamedAfter source d)
    (hs : source'.rows.map label = source.rows.map label) : c.NamedAfter source' d := by
  obtain ⟨current, hd, hcurrent⟩ := h
  refine ⟨current, hd, fun x hx => (hcurrent x hx).imp_right ?_⟩
  rintro ⟨himplicit, k, hk, hki, hkt, hkn⟩
  have hmem := List.mem_map_of_mem (f := label) hk
  rw [← hs] at hmem
  obtain ⟨l, hl, hlabel⟩ := List.mem_map.1 hmem
  simp only [label, Prod.mk.injEq] at hlabel
  obtain ⟨ht, hn, hi⟩ := hlabel
  exact ⟨himplicit, l, hl, hi.trans hki, ht.trans hkt, hkn.trans hn.symm⟩

end NamedAfter

theorem namedAfter_keepName {x : α} (hx : x ∈ source.rows) :
    c.NamedAfter source (c.keepName x) := by
  refine ⟨fun t => if c.takesName x t then name x else name t,
    List.map_congr_left fun t _ => ?_, fun t _ => ?_⟩
  · rw [keptRow]
    dsimp only
    split
    · rfl
    · exact (called_name t).symm
  · dsimp only
    split
    next htakes =>
      obtain ⟨hxi, -, hti, htable, -⟩ := takesName_iff.1 htakes
      exact .inr ⟨hti, x, hx, hxi, htable.symm, rfl⟩
    next => exact .inl rfl

/-- **Rows are named after those whose names are kept.** -/
theorem namedAfter_keepNames : ∀ {c : Collection α} {xs : List α}, (∀ x ∈ xs, x ∈ source.rows) →
    c.NamedAfter source (c.keepNames xs)
  | c, [], _ => .refl c source
  | _, x :: _, h =>
    (namedAfter_keepName (h x (List.mem_cons_self ..))).trans
      (namedAfter_keepNames fun y hy => h y (List.mem_cons_of_mem _ hy))

end Collection

namespace Catalog

/-- The catalogs differ in names of foreign keys and indexes at most, and these are names of rows of
`source`. -/
structure NamedAfter (c source d : Catalog) : Prop where
  tables : d.tables = c.tables
  columns : d.columns = c.columns
  primaryKeys : d.primaryKeys = c.primaryKeys
  foreignKeys : c.foreignKeys.NamedAfter source.foreignKeys d.foreignKeys
  indexes : c.indexes.NamedAfter source.indexes d.indexes
  checks : d.checks = c.checks
  views : d.views = c.views
  viewColumns : d.viewColumns = c.viewColumns

/-- Foreign keys and indexes are known by the same labels. -/
structure SameLabels (c d : Catalog) : Prop where
  foreignKeys : d.foreignKeys.rows.map label = c.foreignKeys.rows.map label
  indexes : d.indexes.rows.map label = c.indexes.rows.map label

variable {source source' c d e : Catalog}

theorem SameLabels.refl (c : Catalog) : SameLabels c c :=
  ⟨rfl, rfl⟩

theorem SameLabels.trans (h : SameLabels c d) (h' : SameLabels d e) : SameLabels c e :=
  ⟨h'.foreignKeys.trans h.foreignKeys, h'.indexes.trans h.indexes⟩

namespace NamedAfter

theorem refl (c source : Catalog) : c.NamedAfter source c :=
  ⟨rfl, rfl, rfl, .refl .., .refl .., rfl, rfl, rfl⟩

theorem trans (h : c.NamedAfter source d) (h' : d.NamedAfter source e) :
    c.NamedAfter source e where
  tables := h'.tables.trans h.tables
  columns := h'.columns.trans h.columns
  primaryKeys := h'.primaryKeys.trans h.primaryKeys
  foreignKeys := h.foreignKeys.trans h'.foreignKeys
  indexes := h.indexes.trans h'.indexes
  checks := h'.checks.trans h.checks
  views := h'.views.trans h.views
  viewColumns := h'.viewColumns.trans h.viewColumns

theorem of_labels (h : c.NamedAfter source d) (hs : SameLabels source source') :
    c.NamedAfter source' d :=
  { h with
    foreignKeys := h.foreignKeys.of_labels hs.foreignKeys
    indexes := h.indexes.of_labels hs.indexes }

end NamedAfter

end Catalog

/-! ## Both sides -/

/-- On the way from `s` to `t` rows of the target have taken over names of rows of the source, and
nothing else has happened to it. Keys are still distinct. -/
structure Sides.TakesNames (s t : Sides) : Prop where
  named : s.target.NamedAfter t.source t.target
  foreignKeys_nodup : (t.target.foreignKeys.rows.map Row.key).Nodup
  indexes_nodup : (t.target.indexes.rows.map Row.key).Nodup

/-- On the way from `s` to `t` labels of the source stay, and the target takes names of it. -/
structure Sides.KeepsLabels (s t : Sides) : Prop where
  labels : s.source.SameLabels t.source
  names : s.TakesNames t

namespace Sides

variable {s t u : Sides}

theorem takesNames_iff : s.TakesNames t ↔ s.target.NamedAfter t.source t.target :=
  ⟨fun h => h.named, fun h => ⟨h, t.target.foreignKeys.keys_nodup, t.target.indexes.keys_nodup⟩⟩

/-- **What names were taken from is still there** as long as labels stay. -/
theorem TakesNames.trans (h : s.TakesNames t) (h' : t.KeepsLabels u) : s.TakesNames u :=
  takesNames_iff.2 ((h.named.of_labels h'.labels).trans h'.names.named)

theorem KeepsLabels.refl (s : Sides) : s.KeepsLabels s :=
  ⟨.refl _, takesNames_iff.2 (.refl ..)⟩

theorem KeepsLabels.trans (h : s.KeepsLabels t) (h' : t.KeepsLabels u) : s.KeepsLabels u :=
  ⟨h.labels.trans h'.labels, h.names.trans h'⟩

end Sides

/-- The catalogs after an edit, whether it has succeeded or not. -/
def SidesEdit.after {β : Type} (e : SidesEdit β) (s : Sides) : Sides :=
  (e.run s).2

namespace Propagate

open Catalog (SameLabels)
open Sides (TakesNames KeepsLabels)

variable {table : String} {m : NameMap}

/-! ## One edit -/

/-- The rows that the edit lists are rows of the catalog that it leaves. -/
def Lists (e : Edit Catalog.Retargeted) : Prop :=
  ∀ {c d touched}, Returns e c touched d →
    (∀ k ∈ touched.foreignKeys, k ∈ d.foreignKeys.rows) ∧ ∀ i ∈ touched.indexes, i ∈ d.indexes.rows

/-- Edits the source; the rows that are listed pass their names on to the target. -/
def carry (e : Edit Catalog.Retargeted) : SidesEdit Unit := do
  let touched ← SidesEdit.onSource e
  SidesEdit.onTarget (keepNames touched.foreignKeys touched.indexes)

/-- **An edit that is carried on** does to the source what it does by itself, and the target takes
names of what it leaves. -/
theorem after_carry {e : Edit Catalog.Retargeted} (hl : Lists e) (s : Sides) :
    ((carry e).after s).source = (e.run s.source).2 ∧ s.TakesNames ((carry e).after s) := by
  rcases returns_or_raises e s.source with ⟨touched, d, h⟩ | ⟨k, d, h⟩
  · have hrun : Returns (carry e) s () ⟨d, s.target.keepNames touched⟩ :=
      returns_bind_iff.2
        ⟨touched, _, returns_onSource_of h, returns_onTarget_of (returns_keepNames ..)⟩
    rw [show (carry e).after s = _ from congrArg Prod.snd hrun]
    obtain ⟨hk, hi⟩ := hl h
    refine ⟨(congrArg Prod.snd h).symm, Sides.takesNames_iff.2 ?_⟩
    exact { Catalog.NamedAfter.refl s.target d with
      foreignKeys := Collection.namedAfter_keepNames hk
      indexes := Collection.namedAfter_keepNames hi }
  · have hrun : Raises (carry e) s k ⟨d, s.target⟩ :=
      raises_bind_iff.2 (.inl (raises_onSource_of h))
    rw [show (carry e).after s = _ from congrArg Prod.snd hrun]
    exact ⟨(congrArg Prod.snd h).symm, Sides.takesNames_iff.2 (.refl ..)⟩

/-! ## Tables -/

theorem lists_retarget (m : NameMap) : Lists (do
    let _ ← Edit.update .tables (fun t => { t with name := m.apply t.name }) fun t =>
      m.renames t.name
    Catalog.retarget m) := by
  intro c d touched h
  obtain ⟨_, _, h₁, h₂⟩ := returns_bind_iff.1 h
  obtain ⟨rows, hr, rfl⟩ := returns_update h₁
  have htables := hr.trans (List.map_congr_left fun x _ => table_ofTables x)
  have hd := returns_retarget htables h₂
  obtain rfl : rows = d.tables := Collection.ext_rows (htables.trans hd.tables.symm)
  obtain ⟨_, ht, h₂'⟩ := exists_returns_retarget hd
  obtain rfl := h₂.unique h₂'
  exact ⟨ht.foreignKeys.mem_rows hd.foreignKeys, ht.indexes.mem_rows hd.indexes⟩

/-- **Renames of tables**: the target takes names of the source as they leave it. -/
theorem keeps_renameTables (rs : List (Renaming Table)) : Keeps TakesNames (renameTables rs) :=
  fun s => (after_carry (lists_retarget (tableNames rs)) s).2

/-! ## Columns and views -/

theorem lists_relabelColumns (table : String) (m : NameMap) : Lists (relabelColumns table m) := by
  intro c d touched h
  have hd := returns_relabelColumns h
  obtain ⟨_, ht, h'⟩ := exists_returns_relabelColumns hd
  obtain rfl := h.unique h'
  exact ⟨ht.foreignKeys.mem_rows hd.foreignKeys, ht.indexes.mem_rows hd.indexes⟩

theorem map_label_update {α : Type} [Row α] [Nameable α] {rows rows' : Collection α}
    {selects : α → Bool} {change : α → α}
    (h : rows'.rows = rows.rows.map fun x => if selects x then change x else x)
    (hl : ∀ x, label (change x) = label x) : rows'.rows.map label = rows.rows.map label := by
  rw [h, List.map_map]
  refine List.map_congr_left fun x _ => ?_
  rw [Function.comp_apply]
  split
  · exact hl x
  · rfl

theorem keeps_labels_then {α β : Type} {x : Edit α} {f : α → Edit β} (hx : Keeps SameLabels x)
    (hf : ∀ a, Keeps SameLabels (f a)) : Keeps SameLabels (x >>= f) :=
  keeps_bind (fun _ _ _ h h' => h.trans h') hx hf

theorem keeps_relabelColumns : Keeps SameLabels (relabelColumns table m) := by
  refine keeps_labels_then (keeps_update .refl fun _ _ _ => ⟨rfl, rfl⟩) fun _ => ?_
  refine keeps_labels_then
    (keeps_update .refl fun _ _ h => ⟨rfl, map_label_update h fun _ => rfl⟩) fun _ => ?_
  refine keeps_labels_then (keeps_update .refl fun _ _ _ => ⟨rfl, rfl⟩) fun _ => ?_
  refine keeps_labels_then
    (keeps_update .refl fun _ _ h => ⟨map_label_update h fun _ => rfl, rfl⟩) fun _ => ?_
  refine keeps_labels_then
    (keeps_update .refl fun _ _ h => ⟨map_label_update h fun _ => rfl, rfl⟩) fun _ => ?_
  exact keeps_pure .refl _

theorem keeps_carry_relabelColumns : Keeps KeepsLabels (carry (relabelColumns table m)) := by
  intro s
  obtain ⟨hsource, hnames⟩ := after_carry (lists_relabelColumns table m) s
  refine ⟨?_, hnames⟩
  show s.source.SameLabels ((carry (relabelColumns table m)).after s).source
  rw [hsource]
  exact keeps_relabelColumns s.source

/-- **Renames of columns** keep labels, table by table. -/
theorem keeps_renameColumns (rs : List (Renaming Column)) : Keeps KeepsLabels (renameColumns rs) :=
  keeps_forM .refl (fun _ _ _ => .trans) (fun _ => keeps_carry_relabelColumns) _

/-- **Renames of views** keep labels, and the target stays. -/
theorem keeps_renameViews (rs : List (Renaming View)) : Keeps KeepsLabels (renameViews rs) := by
  intro s
  refine ⟨?_, Sides.takesNames_iff.2 (.refl ..)⟩
  refine keeps_labels_then (keeps_update .refl fun _ _ _ => ⟨rfl, rfl⟩) (fun _ => ?_) s.source
  refine keeps_labels_then (keeps_update .refl fun _ _ _ => ⟨rfl, rfl⟩) fun _ => ?_
  exact keeps_pure .refl _

/-! ## The run -/

/-- **Renames touch no names but implicit ones** in the target, whether they succeed or not, and
whether a failure ends the run or the renames of the other kinds are tried as well. -/
theorem only_implicit_names (s : Sides) (tables : List (Renaming Table))
    (columns : List (Renaming Column)) (views : List (Renaming View)) :
    s.TakesNames (SidesEdit.after (do
        renameTables tables
        renameColumns columns
        renameViews views) s) ∧
      s.TakesNames ((renameViews views).after
        ((renameColumns columns).after ((renameTables tables).after s))) := by
  have htables := keeps_renameTables tables
  have hcolumns := keeps_renameColumns columns
  have hviews := keeps_renameViews views
  have hrun : Keeps TakesNames (do
      renameTables tables
      renameColumns columns
      renameViews views) := by
    refine keeps_bind_of (fun _ _ _ h h' => h.trans h') htables fun _ => ?_
    exact keeps_bind (fun _ _ _ h h' => h.trans h') hcolumns fun _ => hviews
  exact ⟨hrun s, (htables s).trans ((hcolumns _).trans (hviews _))⟩

end Propagate

end SchemaEvolution
