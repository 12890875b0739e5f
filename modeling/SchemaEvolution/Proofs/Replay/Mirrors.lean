import SchemaEvolution.Proofs.Replay.Batch
import SchemaEvolution.Proofs.Replay.Moved

/-!
# Databases behind catalogs

A migration is planned from a catalog, and it is carried out on a database, which may hold other
rows under the same keys. `Catalog.execute?` is a statement carried out on a database: it does what
`Catalog.perform?` does, and a dropped view takes its columns with it.

**Keys decide** (`Collection.KeysDecide`): whether a statement succeeds, and which keys there are
afterwards, does not depend on what else is in the rows.

**A database mirrors a catalog** (`Catalog.Mirrors`) if both have the same keys, and every column of
a view in the database belongs to a view of it. Columns of views in the catalog do not count, since
no statement is about them.

**Theorem (`Catalog.Mirrors.executeAll?`).** Statements that can be replayed on a catalog can be
carried out on every database that mirrors it, and in the end the one mirrors the other again.
-/

namespace SchemaEvolution

/-! ## Collections with the same keys -/

namespace Collection

variable {α : Type} [Row α] {c d e : Collection α}

/-- Two collections have rows under the same keys. -/
def SameKeys (c d : Collection α) : Prop :=
  ∀ k, c.hasKey k = d.hasKey k

theorem SameKeys.refl (c : Collection α) : SameKeys c c :=
  fun _ => rfl

theorem SameKeys.trans (h : SameKeys c d) (h' : SameKeys d e) : SameKeys c e :=
  fun k => (h k).trans (h' k)

/-- Whether an edit succeeds, and which keys it leaves, depends on the keys alone. -/
def KeysDecide (f : Collection α → Option (Collection α)) : Prop :=
  ∀ {c d d'}, SameKeys c d → f d = some d' → ∃ c', f c = some c' ∧ SameKeys c' d'

theorem hasKey_insert {row : α} (h : c.hasKey (Row.key row) = false) (k : Key) :
    (c.insert row).hasKey k = true ↔ c.hasKey k = true ∨ Row.key row = k := by
  rw [hasKey_iff, hasKey_iff, rows_insert h, List.map_append, List.mem_append]
  exact or_congr_right (List.mem_singleton.trans eq_comm)

theorem keysDecide_insertNew? (row : α) : KeysDecide (·.insertNew? row) := by
  intro c d d' h hd
  change d.insertNew? row = some d' at hd
  rw [insertNew?, Option.ite_none_left_eq_some, Bool.not_eq_true, Option.some.injEq] at hd
  obtain ⟨hfree, rfl⟩ := hd
  have hc : c.hasKey (Row.key row) = false := (h _).trans hfree
  refine ⟨_, if_neg (Bool.eq_false_iff.1 hc), fun k => ?_⟩
  rw [Bool.eq_iff_iff, hasKey_insert hc, hasKey_insert hfree, h k]

theorem keysDecide_insertAllNew? (rows : List α) : KeysDecide (·.insertAllNew? rows) := by
  induction rows with
  | nil =>
    intro c d d' h hd
    obtain rfl := Option.some.inj hd
    exact ⟨c, rfl, h⟩
  | cons row rows ih =>
    intro c d d' h hd
    obtain ⟨d₁, h₁, hd⟩ := Option.bind_eq_some_iff.1 hd
    obtain ⟨c₁, hc₁, hs₁⟩ := keysDecide_insertNew? row h h₁
    obtain ⟨c', hc', hs'⟩ := ih hs₁ hd
    exact ⟨c', Option.bind_eq_some_iff.2 ⟨c₁, hc₁, hc'⟩, hs'⟩

theorem SameKeys.without (h : SameKeys c d) {selects : α → Bool}
    (hs : ∀ x y, Row.key x = Row.key y → selects x = selects y) :
    SameKeys (c.without selects) (d.without selects) := by
  have hsub : ∀ {c d : Collection α}, SameKeys c d → ∀ k,
      (c.without selects).hasKey k = true → (d.without selects).hasKey k = true := by
    intro c d h k hk
    obtain ⟨x, hx, rfl⟩ := hasKey_iff_exists.1 hk
    obtain ⟨hx, hno⟩ := mem_without.1 hx
    obtain ⟨y, hy, e⟩ := hasKey_iff_exists.1 ((h _).symm.trans (hasKey_key hx))
    exact hasKey_iff_exists.2 ⟨y, mem_without.2 ⟨hy, (hs y x e).trans hno⟩, e⟩
  intro k
  rw [Bool.eq_iff_iff]
  exact ⟨hsub h k, hsub (fun k => (h k).symm) k⟩

theorem keysDecide_remove? (key : Key) : KeysDecide (α := α) (·.remove? key) := by
  intro c d d' h hd
  change d.remove? key = some d' at hd
  rw [remove?, Option.ite_none_right_eq_some, Option.some.injEq] at hd
  obtain ⟨hthere, rfl⟩ := hd
  refine ⟨_, if_pos ((h key).trans hthere), h.without fun x y e => ?_⟩
  rw [e]

theorem sameKeys_replace? {row : α} (h : c.replace? row = some d) : SameKeys d c := by
  have hthere : c.hasKey (Row.key row) = true := by
    rw [replace?, Option.ite_none_right_eq_some] at h
    exact h.1
  obtain ⟨e, he, hrows⟩ := replace?_eq_some hthere
  obtain rfl := Option.some.inj (he.symm.trans h)
  intro k
  rw [Bool.eq_iff_iff, hasKey_iff, hasKey_iff, hrows, List.map_map]
  refine iff_of_eq (congrArg (k ∈ ·) (List.map_congr_left fun x _ => ?_))
  by_cases hx : Row.key x = Row.key row
  · simp [hx]
  · simp [hx]

theorem keysDecide_replace? (row : α) : KeysDecide (·.replace? row) := by
  intro c d d' h hd
  change d.replace? row = some d' at hd
  have hthere : d.hasKey (Row.key row) = true := by
    rw [replace?, Option.ite_none_right_eq_some] at hd
    exact hd.1
  obtain ⟨c', hc', -⟩ := replace?_eq_some ((h _).trans hthere)
  refine ⟨c', hc', ?_⟩
  exact ((sameKeys_replace? hc').trans h).trans fun k => (sameKeys_replace? hd k).symm

theorem keysDecide_place? (row : α) (replaces : Bool) : KeysDecide (·.place? row replaces) := by
  cases replaces with
  | false => exact keysDecide_insertNew? row
  | true => exact keysDecide_replace? row

theorem hasKey_place? {row : α} {replaces : Bool} (h : c.place? row replaces = some d) {k : Key}
    (hk : c.hasKey k = true) : d.hasKey k = true := by
  cases replaces with
  | false =>
    rw [place?, insertNew?, Option.ite_none_left_eq_some, Bool.not_eq_true, Option.some.injEq] at h
    obtain ⟨hfree, rfl⟩ := h
    exact (hasKey_insert hfree k).2 (.inl hk)
  | true => exact (sameKeys_replace? h k).trans hk

variable [Labelled α]

theorem keysDecide_relabel? (ρ : Relabelling) : KeysDecide (α := α) (·.relabel? ρ) := by
  intro c d d' h hd
  have hrows := relabel?_eq_some_iff.1 hd
  have hkeys : ∀ e : Collection α, (e.rows.map (relabel ρ)).map Row.key =
      (e.rows.map Row.key).map (ρ.key (Row.kind α)) := by
    intro e
    rw [List.map_map, List.map_map]
    exact List.map_congr_left fun x _ => key_relabel ρ x
  have hperm : (c.rows.map Row.key).Perm (d.rows.map Row.key) := by
    refine (List.perm_ext_iff_of_nodup c.keys_nodup d.keys_nodup).2 fun k => ?_
    rw [← hasKey_iff, ← hasKey_iff, h k]
  have hperm' : ((c.rows.map (relabel ρ)).map Row.key).Perm (d'.rows.map Row.key) := by
    rw [hrows, hkeys, hkeys]
    exact hperm.map _
  refine ⟨⟨_, hperm'.nodup_iff.2 d'.keys_nodup⟩, relabel?_eq_some_iff.2 rfl, fun k => ?_⟩
  rw [Bool.eq_iff_iff, hasKey_iff, hasKey_iff]
  exact hperm'.mem_iff

end Collection

/-! ## Statements on databases -/

namespace Catalog

/-- Carries out one statement on a database, like `Catalog.perform?`, but that a dropped view takes
its columns with it. -/
def execute? (c : Catalog) : Statement → Option Catalog
  | .dropView n => (c.perform? (.dropView n)).map fun d =>
    { d with viewColumns := d.viewColumns.without (·.view == n) }
  | s => c.perform? s

/-- Carries out statements on a database one after the other. -/
def executeAll? (c : Catalog) (ss : List Statement) : Option Catalog :=
  ss.foldlM execute? c

/-- Two catalogs have rows under the same keys. Columns of views do not count. -/
structure SameKeys (c d : Catalog) : Prop where
  tables : c.tables.SameKeys d.tables
  columns : c.columns.SameKeys d.columns
  primaryKeys : c.primaryKeys.SameKeys d.primaryKeys
  foreignKeys : c.foreignKeys.SameKeys d.foreignKeys
  indexes : c.indexes.SameKeys d.indexes
  checks : c.checks.SameKeys d.checks
  views : c.views.SameKeys d.views

/-- Every column of a view belongs to a view of the catalog. -/
def ViewColumnsOwned (c : Catalog) : Prop :=
  ∀ w ∈ c.viewColumns.rows, c.views.hasKey (.single w.view) = true

variable {c d e : Catalog} {s : Statement} {ss : List Statement} {ρ : Relabelling}

theorem SameKeys.refl (c : Catalog) : SameKeys c c := by
  constructor <;> exact Collection.SameKeys.refl _

theorem SameKeys.trans (h : SameKeys c d) (h' : SameKeys d e) : SameKeys c e where
  tables := h.tables.trans h'.tables
  columns := h.columns.trans h'.columns
  primaryKeys := h.primaryKeys.trans h'.primaryKeys
  foreignKeys := h.foreignKeys.trans h'.foreignKeys
  indexes := h.indexes.trans h'.indexes
  checks := h.checks.trans h'.checks
  views := h.views.trans h'.views

/-! ### The columns of views -/

theorem ViewColumnsOwned.exists_relabelled (ho : c.ViewColumnsOwned) {views : Collection View}
    (hv : views.rows = c.views.rows.map (relabel ρ)) :
    ∃ rows : Collection ViewColumn, rows.rows = c.viewColumns.rows.map (relabel ρ) := by
  have hn : ((c.viewColumns.rows.map (relabel ρ)).map Row.key).Nodup := by
    rw [List.map_map]
    refine List.Nodup.map_on (fun x hx y hy e => ?_) c.viewColumns.nodup_rows
    obtain ⟨hview, hname⟩ := Key.scoped.inj e
    obtain ⟨u, hu, hux⟩ := Collection.hasKey_iff_exists.1 (ho x hx)
    obtain ⟨v, hv', hvy⟩ := Collection.hasKey_iff_exists.1 (ho y hy)
    have huv : u = v := by
      refine eq_of_relabelled_key hv hu hv' ?_
      rw [key_relabel, key_relabel, hux, hvy]
      exact congrArg Key.single hview
    refine Collection.eq_of_key_eq hx hy (congrArg₂ Key.scoped ?_ hname)
    exact Key.single.inj ((hux.symm.trans (congrArg Row.key huv)).trans hvy)
  exact ⟨⟨_, hn⟩, rfl⟩

theorem ViewColumnsOwned.of_isRelabelled (ho : c.ViewColumnsOwned) (h : IsRelabelled ρ c d) :
    d.ViewColumnsOwned := by
  intro w hw
  rw [h.viewColumns] at hw
  obtain ⟨y, hy, rfl⟩ := List.mem_map.1 hw
  exact h.hasView (ho y hy)

theorem ViewColumnsOwned.rename? {α : Type} [Row α] {rows : Collection α} {old new : Key}
    (ho : c.ViewColumnsOwned) (h : c.rename? rows old new ρ = some d) : d.ViewColumnsOwned := by
  rw [Catalog.rename?, Option.ite_none_right_eq_some] at h
  exact ho.of_isRelabelled (isRelabelled_of_relabel? h.2)

theorem ViewColumnsOwned.place? {v : View} {replaces : Bool} (ho : c.ViewColumnsOwned)
    (h : Part.views.modify? (·.place? v replaces) c = some d) : d.ViewColumnsOwned := by
  obtain ⟨rows, hr, rfl⟩ := Option.map_eq_some_iff.1 h
  exact fun w hw => Collection.hasKey_place? hr (ho w hw)

/-- The columns of a dropped view are gone, those of the others have their view. -/
theorem ViewColumnsOwned.dropView? {n : String} (ho : c.ViewColumnsOwned)
    (h : c.perform? (.dropView n) = some d) :
    { d with viewColumns := d.viewColumns.without (·.view == n) : Catalog }.ViewColumnsOwned := by
  obtain ⟨rows, hr, rfl⟩ := Option.map_eq_some_iff.1 h
  change c.views.remove? (.single n) = some rows at hr
  rw [Collection.remove?, Option.ite_none_right_eq_some, Option.some.injEq] at hr
  obtain ⟨-, rfl⟩ := hr
  intro w hw
  obtain ⟨hw, hne⟩ := Collection.mem_without.1 hw
  obtain ⟨v, hv, e⟩ := Collection.hasKey_iff_exists.1 (ho w hw)
  refine Collection.hasKey_iff_exists.2 ⟨v, Collection.mem_without.2 ⟨hv, ?_⟩, e⟩
  rw [e]
  simpa using hne

/-- **Columns of views keep belonging to a view** when a statement is carried out. -/
theorem ViewColumnsOwned.execute? (ho : c.ViewColumnsOwned) (h : c.execute? s = some d) :
    d.ViewColumnsOwned := by
  cases s with
  | createTable t =>
    simp only [Catalog.execute?, perform?, createTable?, Option.bind_eq_bind,
      Option.bind_eq_some_iff] at h
    obtain ⟨_, -, _, -, _, -, _, -, _, -, _, -, hd⟩ := h
    obtain rfl := Option.some.inj hd
    exact ho
  | dropTable t =>
    simp only [Catalog.execute?, perform?, dropTable?, Option.bind_eq_bind,
      Option.bind_eq_some_iff] at h
    obtain ⟨_, -, hd⟩ := h
    obtain rfl := Option.some.inj hd
    exact ho
  | renameTable | renameColumn | renameView => exact ho.rename? h
  | createView | alterView => exact ho.place? h
  | dropView n =>
    obtain ⟨e, he, rfl⟩ := Option.map_eq_some_iff.1 h
    exact ho.dropView? he
  | dropConstraint _ _ sort =>
    cases sort <;>
    · obtain ⟨rows, -, rfl⟩ := Option.map_eq_some_iff.1 h
      exact ho
  | _ =>
    obtain ⟨rows, -, rfl⟩ := Option.map_eq_some_iff.1 h
    exact ho

/-! ### One statement -/

theorem SameKeys.relabel? (h : SameKeys c d) (ho : c.ViewColumnsOwned)
    (hd : d.relabel? ρ = some e) : ∃ c', c.relabel? ρ = some c' ∧ SameKeys c' e := by
  have hr := isRelabelled_of_relabel? hd
  have hmove : ∀ {α : Type} [Row α] [Labelled α] {rows rows' rows'' : Collection α},
      rows.SameKeys rows' → rows''.rows = rows'.rows.map (relabel ρ) →
        ∃ r : Collection α, r.rows = rows.rows.map (relabel ρ) ∧ r.SameKeys rows'' := by
    intro α _ _ rows rows' rows'' hs hrel
    obtain ⟨r, hr, hs'⟩ :=
      Collection.keysDecide_relabel? ρ hs (Collection.relabel?_eq_some_iff.2 hrel)
    exact ⟨r, Collection.relabel?_eq_some_iff.1 hr, hs'⟩
  obtain ⟨ts, ht, hts⟩ := hmove h.tables hr.tables
  obtain ⟨cs, hc, hcs⟩ := hmove h.columns hr.columns
  obtain ⟨ps, hp, hps⟩ := hmove h.primaryKeys hr.primaryKeys
  obtain ⟨fs, hf, hfs⟩ := hmove h.foreignKeys hr.foreignKeys
  obtain ⟨is, hi, his⟩ := hmove h.indexes hr.indexes
  obtain ⟨ks, hk, hks⟩ := hmove h.checks hr.checks
  obtain ⟨vs, hv, hvs⟩ := hmove h.views hr.views
  obtain ⟨ws, hw⟩ := ho.exists_relabelled hv
  have hrel : IsRelabelled ρ c ⟨ts, cs, ps, fs, is, ks, vs, ws⟩ := ⟨ht, hc, hp, hf, hi, hk, hv, hw⟩
  exact ⟨_, relabel?_eq_some_of_isRelabelled hrel, ⟨hts, hcs, hps, hfs, his, hks, hvs⟩⟩

theorem SameKeys.rename? {α : Type} [Row α] {rows rows' : Collection α} {old new : Key}
    (h : SameKeys c d) (ho : c.ViewColumnsOwned) (hrows : rows.SameKeys rows')
    (hd : d.rename? rows' old new ρ = some e) :
    ∃ c', c.rename? rows old new ρ = some c' ∧ SameKeys c' e := by
  rw [Catalog.rename?, Option.ite_none_right_eq_some, ← hrows old, ← hrows new] at hd
  obtain ⟨c', hc', hs⟩ := h.relabel? ho hd.2
  exact ⟨c', Option.ite_none_right_eq_some.2 ⟨hd.1, hc'⟩, hs⟩

theorem SameKeys.createTable? {t : TableDefinition} (h : SameKeys c d)
    (hd : d.createTable? t = some e) : ∃ c', c.createTable? t = some c' ∧ SameKeys c' e := by
  simp only [Catalog.createTable?, Option.bind_eq_bind, Option.bind_eq_some_iff] at hd ⊢
  obtain ⟨_, ht, _, hc, _, hp, _, hf, _, hi, _, hk, hd⟩ := hd
  obtain rfl := Option.some.inj hd
  obtain ⟨ts, ht, hts⟩ := Collection.keysDecide_insertNew? _ h.tables ht
  obtain ⟨cs, hc, hcs⟩ := Collection.keysDecide_insertAllNew? _ h.columns hc
  obtain ⟨ps, hp, hps⟩ := Collection.keysDecide_insertAllNew? _ h.primaryKeys hp
  obtain ⟨fs, hf, hfs⟩ := Collection.keysDecide_insertAllNew? _ h.foreignKeys hf
  obtain ⟨is, hi, his⟩ := Collection.keysDecide_insertAllNew? _ h.indexes hi
  obtain ⟨ks, hk, hks⟩ := Collection.keysDecide_insertAllNew? _ h.checks hk
  exact ⟨_, ⟨ts, ht, cs, hc, ps, hp, fs, hf, is, hi, ks, hk, rfl⟩,
    ⟨hts, hcs, hps, hfs, his, hks, h.views⟩⟩

theorem SameKeys.dropTable? {t : String} (h : SameKeys c d) (hd : d.dropTable? t = some e) :
    ∃ c', c.dropTable? t = some c' ∧ SameKeys c' e := by
  simp only [Catalog.dropTable?, Option.bind_eq_bind, Option.bind_eq_some_iff] at hd ⊢
  obtain ⟨_, ht, hd⟩ := hd
  obtain rfl := Option.some.inj hd
  obtain ⟨ts, ht, hts⟩ := Collection.keysDecide_remove? _ h.tables ht
  exact ⟨_, ⟨ts, ht, rfl⟩, {
    tables := hts
    columns := h.columns.without fun x y e => congrArg (· == t) (Key.scoped.inj e).1
    primaryKeys := h.primaryKeys.without fun x y e => congrArg (· == t) (Key.single.inj e)
    foreignKeys := h.foreignKeys.without fun x y e => congrArg (· == t) (Key.scoped.inj e).1
    indexes := h.indexes.without fun x y e => congrArg (· == t) (Key.scoped.inj e).1
    checks := h.checks.without fun x y e => congrArg (· == t) (Key.scoped.inj e).1
    views := h.views }⟩

/-- An edit of one collection that keys decide about. -/
theorem SameKeys.modify? {α : Type} [Row α] {part : Part α}
    {f : Collection α → Option (Collection α)} (hf : Collection.KeysDecide f)
    (hget : (part.get c).SameKeys (part.get d))
    (hset : ∀ rows rows', rows.SameKeys rows' → SameKeys (part.set rows c) (part.set rows' d))
    (hd : part.modify? f d = some e) : ∃ c', part.modify? f c = some c' ∧ SameKeys c' e := by
  obtain ⟨rows', hr', rfl⟩ := Option.map_eq_some_iff.1 hd
  obtain ⟨rows, hr, hs⟩ := hf hget hr'
  exact ⟨_, Part.modify?_eq_some hr, hset rows rows' hs⟩

open Collection in
/-- **Keys decide about a statement.** -/
theorem SameKeys.perform? (h : SameKeys c d) (ho : c.ViewColumnsOwned)
    (hd : d.perform? s = some e) : ∃ c', c.perform? s = some c' ∧ SameKeys c' e := by
  cases s with
  | createTable => exact h.createTable? hd
  | dropTable => exact h.dropTable? hd
  | renameTable => exact h.rename? ho h.tables hd
  | renameColumn => exact h.rename? ho h.columns hd
  | renameView => exact h.rename? ho h.views hd
  | addColumn | alterColumn | recreateColumn =>
    exact modify? (keysDecide_place? _ _) h.columns (fun _ _ hr => { h with columns := hr }) hd
  | dropColumn =>
    exact modify? (keysDecide_remove? _) h.columns (fun _ _ hr => { h with columns := hr }) hd
  | createPrimaryKey =>
    exact modify? (keysDecide_place? _ _) h.primaryKeys
      (fun _ _ hr => { h with primaryKeys := hr }) hd
  | dropPrimaryKey =>
    exact modify? (keysDecide_remove? _) h.primaryKeys
      (fun _ _ hr => { h with primaryKeys := hr }) hd
  | createForeignKey =>
    exact modify? (keysDecide_place? _ _) h.foreignKeys
      (fun _ _ hr => { h with foreignKeys := hr }) hd
  | createIndex =>
    exact modify? (keysDecide_place? _ _) h.indexes (fun _ _ hr => { h with indexes := hr }) hd
  | dropIndex =>
    exact modify? (keysDecide_remove? _) h.indexes (fun _ _ hr => { h with indexes := hr }) hd
  | createCheck =>
    exact modify? (keysDecide_place? _ _) h.checks (fun _ _ hr => { h with checks := hr }) hd
  | createView | alterView =>
    exact modify? (keysDecide_place? _ _) h.views (fun _ _ hr => { h with views := hr }) hd
  | dropView =>
    exact modify? (keysDecide_remove? _) h.views (fun _ _ hr => { h with views := hr }) hd
  | dropConstraint _ _ sort =>
    cases sort with
    | foreignKey =>
      exact modify? (keysDecide_remove? _) h.foreignKeys
        (fun _ _ hr => { h with foreignKeys := hr }) hd
    | check =>
      exact modify? (keysDecide_remove? _) h.checks (fun _ _ hr => { h with checks := hr }) hd

theorem SameKeys.execute? (h : SameKeys c d) (ho : c.ViewColumnsOwned)
    (hd : d.perform? s = some e) : ∃ c', c.execute? s = some c' ∧ SameKeys c' e := by
  obtain ⟨c', hc', hs⟩ := h.perform? ho hd
  cases s with
  | dropView n =>
    refine ⟨{ c' with viewColumns := c'.viewColumns.without (·.view == n) }, ?_, { hs with }⟩
    rw [Catalog.execute?, hc']
    rfl
  | _ => exact ⟨c', hc', hs⟩

/-! ### Databases that mirror catalogs -/

/-- A database has rows under the same keys as a catalog, and the columns of its views have their
views. -/
structure Mirrors (c d : Catalog) : Prop where
  keys : SameKeys c d
  owned : c.ViewColumnsOwned

/-- **One statement**: what can be replayed on a catalog can be carried out on its mirror. -/
theorem Mirrors.execute? (h : Mirrors c d) (hd : d.perform? s = some e) :
    ∃ c', c.execute? s = some c' ∧ Mirrors c' e := by
  obtain ⟨c', hc', hs⟩ := h.keys.execute? h.owned hd
  exact ⟨c', hc', hs, h.owned.execute? hc'⟩

/-- **Statements one after the other.** -/
theorem Mirrors.executeAll? (h : Mirrors c d) (hd : d.replay? ss = some e) :
    ∃ c', c.executeAll? ss = some c' ∧ Mirrors c' e := by
  induction ss generalizing c d with
  | nil =>
    obtain rfl := Option.some.inj hd
    exact ⟨c, rfl, h⟩
  | cons s ss ih =>
    obtain ⟨d₁, h₁, hd⟩ := Option.bind_eq_some_iff.1 hd
    obtain ⟨c₁, hc₁, hm₁⟩ := h.execute? h₁
    obtain ⟨c', hc', hm'⟩ := ih hm₁ hd
    exact ⟨c', Option.bind_eq_some_iff.2 ⟨c₁, hc₁, hc'⟩, hm'⟩

end Catalog

end SchemaEvolution
