import SchemaEvolution.Proofs.Rows
import SchemaEvolution.Rename.Propagate

/-!
# Relabelling

A name stands in many rows. A `Relabelling` says what every table, column and view is to be
called; `relabel` carries it through a row of any kind, and through a whole catalog.

**One relabelling after another** is a relabelling again (`Relabelling.andThen`), so renames that
are carried out one by one can be compared with the same renames carried out at once.

**The new key depends on the old key alone** (`key_relabel`). So if no two rows share a key after
several relabellings, no two did in between (`Catalog.IsRelabelled.split`).
-/

namespace SchemaEvolution

/-! ## New names -/

namespace NameMap

variable {m : NameMap} {a b n : String}

theorem renames_eq_true_iff : m.renames n = true ↔ n ∈ m.map Prod.fst := by
  simp [renames]

theorem apply_of_not_mem (h : n ∉ m.map Prod.fst) : m.apply n = n := by
  have hl : m.reverse.lookup n = none := by
    rw [List.lookup_eq_none_iff]
    intro r hab
    obtain ⟨a, b⟩ := r
    have : n ≠ a := fun e => h (List.mem_map.2 ⟨(a, b), by simpa using hab, e.symm⟩)
    simpa using this
  rw [apply, hl]
  rfl

theorem apply_of_renames_eq_false (h : m.renames n = false) : m.apply n = n :=
  apply_of_not_mem fun hm => by rw [renames_eq_true_iff.2 hm] at h; cases h

theorem apply_of_mem (hn : (m.map Prod.fst).Nodup) (h : (a, b) ∈ m) : m.apply a = b := by
  cases hl : m.reverse.lookup a with
  | none =>
    rw [List.lookup_eq_none_iff] at hl
    simpa using hl (a, b) (by simpa using h)
  | some c =>
    obtain ⟨l₁, l₂, hm, -⟩ := List.lookup_eq_some_iff.1 hl
    have hc : (a, c) ∈ m := by
      rw [← List.mem_reverse, hm]
      simp
    rw [apply, hl]
    exact congrArg Prod.snd (List.inj_on_of_nodup_map hn hc h rfl)

theorem apply_cases (hn : (m.map Prod.fst).Nodup) (n : String) :
    m.apply n = n ∨ (n, m.apply n) ∈ m := by
  by_cases h : n ∈ m.map Prod.fst
  · obtain ⟨⟨a, b⟩, hab, rfl⟩ := List.mem_map.1 h
    exact .inr (by rwa [apply_of_mem hn hab])
  · exact .inl (apply_of_not_mem h)

theorem apply_singleton (a b n : String) : apply [(a, b)] n = if n = a then b else n := by
  by_cases h : n = a
  · subst h
    simp [apply]
  · rw [apply_of_not_mem (by simpa using h), if_neg h]

theorem apply_perm {m' : NameMap} (h : m.Perm m') (hn : (m.map Prod.fst).Nodup) (n : String) :
    m.apply n = m'.apply n := by
  have hn' : (m'.map Prod.fst).Nodup := (h.map _).nodup_iff.1 hn
  by_cases hm : n ∈ m.map Prod.fst
  · obtain ⟨⟨a, b⟩, hab, rfl⟩ := List.mem_map.1 hm
    rw [apply_of_mem hn hab, apply_of_mem hn' (h.mem_iff.1 hab)]
  · rw [apply_of_not_mem hm, apply_of_not_mem fun hm' => hm ((h.map _).mem_iff.2 hm')]

/-- Where names are given up once and never taken up again, they may be changed one by one. -/
theorem apply_cons (ha : a ∉ m.map Prod.fst) (hb : b ∉ m.map Prod.fst) :
    apply ((a, b) :: m) n = m.apply (apply [(a, b)] n) := by
  rw [apply_singleton]
  by_cases h : n = a
  · subst h
    have hl : m.reverse.lookup n = none := by
      rw [List.lookup_eq_none_iff]
      intro r hcd
      obtain ⟨c, d⟩ := r
      have : n ≠ c := fun e => ha (List.mem_map.2 ⟨(c, d), by simpa using hcd, e.symm⟩)
      simpa using this
    rw [if_pos rfl, apply_of_not_mem hb, apply, List.reverse_cons, List.lookup_append, hl]
    simp
  · rw [if_neg h, apply, apply, List.reverse_cons, List.lookup_append]
    have hn : (n == a) = false := by simpa using h
    cases m.reverse.lookup n <;> simp [List.lookup_cons, hn]

end NameMap

/-! ## Relabellings -/

/-- What everything with a name of its own is to be called. A column is found by the name that its
table has before. -/
@[ext] structure Relabelling where
  table : String → String := id
  column : String → String → String := fun _ name => name
  view : String → String := id

namespace Relabelling

/-- Nothing gets another name. -/
def none : Relabelling := {}

def ofTables (m : NameMap) : Relabelling := { table := m.apply }

/-- New names for the columns of a table. -/
def ofColumns (table : String) (m : NameMap) : Relabelling where
  column t name := if t = table then m.apply name else name

def ofViews (m : NameMap) : Relabelling := { view := m.apply }

/-- A relabelling, and another one of what it gives. -/
def andThen (ρ σ : Relabelling) : Relabelling where
  table t := σ.table (ρ.table t)
  column t name := σ.column (ρ.table t) (ρ.column t name)
  view v := σ.view (ρ.view v)

/-- The key of a row of a kind after a relabelling. -/
def key (ρ : Relabelling) : Kind → Key → Key
  | .tables, .single n => .single (ρ.table n)
  | .columns, .scoped t n => .scoped (ρ.table t) (ρ.column t n)
  | .primaryKeys, .single t => .single (ρ.table t)
  | .foreignKeys, .scoped t n => .scoped (ρ.table t) n
  | .indexes, .scoped t n => .scoped (ρ.table t) n
  | .checks, .scoped t n => .scoped (ρ.table t) n
  | .views, .single n => .single (ρ.view n)
  | .viewColumns, .scoped v n => .scoped (ρ.view v) n
  | _, k => k

end Relabelling

/-! ## Rows -/

/-- Rows that relabellings are carried through. -/
class Labelled (α : Type) [Row α] where
  relabel : Relabelling → α → α
  relabel_none : ∀ x, relabel .none x = x
  relabel_relabel : ∀ ρ σ x, relabel σ (relabel ρ x) = relabel (ρ.andThen σ) x
  key_relabel : ∀ ρ x, Row.key (relabel ρ x) = ρ.key (Row.kind α) (Row.key x)

export Labelled (relabel relabel_none relabel_relabel key_relabel)

theorem IndexPart.mapColumn_id : IndexPart.mapColumn (fun name => name) = id := by
  funext p
  cases p <;> rfl

theorem IndexPart.mapColumn_mapColumn (f g : String → String) (p : IndexPart) :
    (p.mapColumn f).mapColumn g = p.mapColumn fun name => g (f name) := by
  cases p <;> rfl

instance : Labelled Table where
  relabel ρ t := { t with name := ρ.table t.name }
  relabel_none _ := rfl
  relabel_relabel _ _ _ := rfl
  key_relabel _ _ := rfl

instance : Labelled Column where
  relabel ρ c := { c with table := ρ.table c.table, name := ρ.column c.table c.name }
  relabel_none _ := rfl
  relabel_relabel _ _ _ := rfl
  key_relabel _ _ := rfl

instance : Labelled PrimaryKey where
  relabel ρ k := { k with table := ρ.table k.table, columns := k.columns.map (ρ.column k.table) }
  relabel_none k := by simp [Relabelling.none]
  relabel_relabel ρ σ k := by simp [Relabelling.andThen]
  key_relabel _ _ := rfl

instance : Labelled ForeignKey where
  relabel ρ k := { k with
    table := ρ.table k.table
    columns := k.columns.map (ρ.column k.table)
    target := ρ.table k.target
    targetColumns := k.targetColumns.map (ρ.column k.target) }
  relabel_none k := by simp [Relabelling.none]
  relabel_relabel ρ σ k := by simp [Relabelling.andThen]
  key_relabel _ _ := rfl

instance : Labelled Index where
  relabel ρ i := { i with
    table := ρ.table i.table
    parts := i.parts.map (·.mapColumn (ρ.column i.table)) }
  relabel_none i := by simp [Relabelling.none, IndexPart.mapColumn_id]
  relabel_relabel ρ σ i := by
    simp [Relabelling.andThen, Function.comp_def, IndexPart.mapColumn_mapColumn]
  key_relabel _ _ := rfl

instance : Labelled Check where
  relabel ρ c := { c with table := ρ.table c.table }
  relabel_none _ := rfl
  relabel_relabel _ _ _ := rfl
  key_relabel _ _ := rfl

instance : Labelled View where
  relabel ρ v := { v with name := ρ.view v.name }
  relabel_none _ := rfl
  relabel_relabel _ _ _ := rfl
  key_relabel _ _ := rfl

instance : Labelled ViewColumn where
  relabel ρ c := { c with view := ρ.view c.view }
  relabel_none _ := rfl
  relabel_relabel _ _ _ := rfl
  key_relabel _ _ := rfl

/-! ## Collections -/

/-- The collection with every row relabelled, if no two rows come to share a key. -/
def Collection.relabel? {α : Type} [Row α] [Labelled α] (ρ : Relabelling) (c : Collection α) :
    Option (Collection α) :=
  (c.update (relabel ρ) fun _ => true).toOption.map (·.1)

section

variable {α : Type} [Row α] [Labelled α] {ρ σ : Relabelling} {c d e : Collection α}

theorem key_relabel_congr {x y : α} (h : Row.key x = Row.key y) :
    Row.key (relabel ρ x) = Row.key (relabel ρ y) := by
  rw [key_relabel, key_relabel, h]

theorem map_relabel_eq_self {xs : List α} (h : ∀ x : α, relabel ρ x = x) :
    xs.map (relabel ρ) = xs := by
  rw [show (relabel ρ : α → α) = id from funext h, List.map_id]

theorem map_relabel_relabel (xs : List α) :
    (xs.map (relabel ρ)).map (relabel σ) = xs.map (relabel (ρ.andThen σ)) := by
  rw [List.map_map]
  exact List.map_congr_left fun x _ => relabel_relabel ρ σ x

theorem Collection.relabel?_eq_some_iff :
    c.relabel? ρ = some d ↔ d.rows = c.rows.map (relabel ρ) := by
  unfold Collection.relabel?
  constructor
  · intro h
    cases hu : c.update (relabel ρ) fun _ => true with
    | error k => simp [hu, Except.toOption] at h
    | ok r =>
      obtain ⟨e, upd⟩ := r
      simp only [hu, Except.toOption, Option.map_some, Option.some.injEq] at h
      subst h
      simpa using (Collection.update_eq_ok_iff.1 hu).1
  · intro h
    have hu : c.update (relabel ρ) (fun _ => true) =
        .ok (d, (c.rows.filter fun _ => true).map (relabel ρ)) :=
      Collection.update_eq_ok_iff.2 ⟨by simpa using h, rfl⟩
    rw [hu]
    rfl

/-- **If no two rows share a key in the end, no two did in between.** -/
theorem Collection.exists_between (h : e.rows = c.rows.map (relabel (ρ.andThen σ))) :
    ∃ d : Collection α, d.rows = c.rows.map (relabel ρ) ∧ e.rows = d.rows.map (relabel σ) := by
  have hn : ((c.rows.map (relabel ρ)).map Row.key).Nodup := by
    have he := e.keys_nodup
    rw [h, ← map_relabel_relabel] at he
    refine List.Nodup.map_on (fun x hx y hy hxy => ?_) (he.of_map.of_map _)
    exact List.inj_on_of_nodup_map he.of_map hx hy
      (List.inj_on_of_nodup_map he (List.mem_map_of_mem hx) (List.mem_map_of_mem hy)
        (key_relabel_congr hxy))
  exact ⟨⟨_, hn⟩, rfl, by rw [h, map_relabel_relabel]⟩

end

/-! ## Catalogs -/

namespace Catalog

variable {ρ σ : Relabelling} {c d e : Catalog}

/-- The catalog with every row relabelled, if no two rows of a kind come to share a key. -/
def relabel? (ρ : Relabelling) (c : Catalog) : Option Catalog := do
  return {
    tables := ← c.tables.relabel? ρ
    columns := ← c.columns.relabel? ρ
    primaryKeys := ← c.primaryKeys.relabel? ρ
    foreignKeys := ← c.foreignKeys.relabel? ρ
    indexes := ← c.indexes.relabel? ρ
    checks := ← c.checks.relabel? ρ
    views := ← c.views.relabel? ρ
    viewColumns := ← c.viewColumns.relabel? ρ }

/-- The rows of `d` are the relabelled rows of `c`, in the same order. -/
structure IsRelabelled (ρ : Relabelling) (c d : Catalog) : Prop where
  tables : d.tables.rows = c.tables.rows.map (relabel ρ)
  columns : d.columns.rows = c.columns.rows.map (relabel ρ)
  primaryKeys : d.primaryKeys.rows = c.primaryKeys.rows.map (relabel ρ)
  foreignKeys : d.foreignKeys.rows = c.foreignKeys.rows.map (relabel ρ)
  indexes : d.indexes.rows = c.indexes.rows.map (relabel ρ)
  checks : d.checks.rows = c.checks.rows.map (relabel ρ)
  views : d.views.rows = c.views.rows.map (relabel ρ)
  viewColumns : d.viewColumns.rows = c.viewColumns.rows.map (relabel ρ)

theorem relabel?_eq_some_of_isRelabelled (h : IsRelabelled ρ c d) : c.relabel? ρ = some d := by
  simp [relabel?, Collection.relabel?_eq_some_iff.2 h.tables,
    Collection.relabel?_eq_some_iff.2 h.columns, Collection.relabel?_eq_some_iff.2 h.primaryKeys,
    Collection.relabel?_eq_some_iff.2 h.foreignKeys, Collection.relabel?_eq_some_iff.2 h.indexes,
    Collection.relabel?_eq_some_iff.2 h.checks, Collection.relabel?_eq_some_iff.2 h.views,
    Collection.relabel?_eq_some_iff.2 h.viewColumns]

theorem isRelabelled_of_relabel? (h : c.relabel? ρ = some d) : IsRelabelled ρ c d := by
  simp only [relabel?, Option.bind_eq_bind, Option.bind_eq_some_iff] at h
  obtain ⟨_, ht, _, hc, _, hp, _, hf, _, hi, _, hk, _, hv, _, hw, hd⟩ := h
  obtain rfl := Option.some.inj hd
  exact {
    tables := Collection.relabel?_eq_some_iff.1 ht
    columns := Collection.relabel?_eq_some_iff.1 hc
    primaryKeys := Collection.relabel?_eq_some_iff.1 hp
    foreignKeys := Collection.relabel?_eq_some_iff.1 hf
    indexes := Collection.relabel?_eq_some_iff.1 hi
    checks := Collection.relabel?_eq_some_iff.1 hk
    views := Collection.relabel?_eq_some_iff.1 hv
    viewColumns := Collection.relabel?_eq_some_iff.1 hw }

namespace IsRelabelled

theorem refl (c : Catalog) : IsRelabelled .none c c := by
  constructor <;> exact (map_relabel_eq_self relabel_none).symm

theorem eq_of_none (h : IsRelabelled .none c d) : d = c := by
  have hrows : ∀ {α : Type} [Row α] [Labelled α] {rows rows' : Collection α},
      rows'.rows = rows.rows.map (relabel .none) → rows' = rows := fun e =>
    Collection.ext_rows (e.trans (map_relabel_eq_self relabel_none))
  cases c
  cases d
  simp only [Catalog.mk.injEq]
  exact ⟨hrows h.tables, hrows h.columns, hrows h.primaryKeys, hrows h.foreignKeys,
    hrows h.indexes, hrows h.checks, hrows h.views, hrows h.viewColumns⟩

theorem trans (h : IsRelabelled ρ c d) (h' : IsRelabelled σ d e) :
    IsRelabelled (ρ.andThen σ) c e where
  tables := by rw [h'.tables, h.tables, map_relabel_relabel]
  columns := by rw [h'.columns, h.columns, map_relabel_relabel]
  primaryKeys := by rw [h'.primaryKeys, h.primaryKeys, map_relabel_relabel]
  foreignKeys := by rw [h'.foreignKeys, h.foreignKeys, map_relabel_relabel]
  indexes := by rw [h'.indexes, h.indexes, map_relabel_relabel]
  checks := by rw [h'.checks, h.checks, map_relabel_relabel]
  views := by rw [h'.views, h.views, map_relabel_relabel]
  viewColumns := by rw [h'.viewColumns, h.viewColumns, map_relabel_relabel]

/-- **A relabelling in two steps passes through a catalog.** -/
theorem split (h : IsRelabelled (ρ.andThen σ) c e) :
    ∃ d, IsRelabelled ρ c d ∧ IsRelabelled σ d e := by
  obtain ⟨t, ht, ht'⟩ := Collection.exists_between h.tables
  obtain ⟨cs, hc, hc'⟩ := Collection.exists_between h.columns
  obtain ⟨ps, hp, hp'⟩ := Collection.exists_between h.primaryKeys
  obtain ⟨fs, hf, hf'⟩ := Collection.exists_between h.foreignKeys
  obtain ⟨is, hi, hi'⟩ := Collection.exists_between h.indexes
  obtain ⟨ks, hk, hk'⟩ := Collection.exists_between h.checks
  obtain ⟨vs, hv, hv'⟩ := Collection.exists_between h.views
  obtain ⟨ws, hw, hw'⟩ := Collection.exists_between h.viewColumns
  exact ⟨⟨t, cs, ps, fs, is, ks, vs, ws⟩, ⟨ht, hc, hp, hf, hi, hk, hv, hw⟩,
    ⟨ht', hc', hp', hf', hi', hk', hv', hw'⟩⟩

end IsRelabelled

end Catalog

end SchemaEvolution
