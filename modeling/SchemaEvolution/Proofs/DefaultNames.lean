import SchemaEvolution.Proofs.DistinctNames
import SchemaEvolution.Proofs.RestoredNames
import SchemaEvolution.Proofs.ValidRows

/-!
# What default names tell

The default name of a foreign key or an index joins the names of tables and columns by underscores.
If none of these names has an underscore itself (`Unjoined`), the default name tells them all
(`ForeignKey.eq_of_defaultName`, `Index.eq_of_defaultName?`).

**Renames in part** (`Relabelling.Within`): on the way from the old names to the new ones every
table has either its old or its new name, and the columns of a table have either all their old or
all their new names. If new names are fresh (`Relabelling.Fresh`), a name tells what it is the name
of, no matter how much has been renamed. So **default names tell the rows of a catalog apart** all
along (`Catalog.legible_foreignKeys`, `Catalog.legible_indexes`).
-/

namespace SchemaEvolution

/-- A name without the sign that joins the parts of a default name. -/
def Unjoined (name : String) : Prop :=
  '_' ∉ name.toList

instance (name : String) : Decidable (Unjoined name) :=
  inferInstanceAs (Decidable (_ ∉ _))

/-- **Parts without underscores can be read off the joined name.** -/
theorem eq_of_intercalate {xs ys : List String} (hx : ∀ s ∈ xs, Unjoined s)
    (hy : ∀ s ∈ ys, Unjoined s) (hxn : xs ≠ []) (hyn : ys ≠ [])
    (h : "_".intercalate xs = "_".intercalate ys) : xs = ys := by
  have hsplit {zs : List String} (hz : ∀ s ∈ zs, Unjoined s) (hzn : zs ≠ []) :
      ("_".intercalate zs).toList.splitOn '_' = zs.map String.toList := by
    rw [String.toList_intercalate]
    refine List.splitOn_intercalate '_' (fun l hl => ?_) (by simpa using hzn)
    obtain ⟨s, hs, rfl⟩ := List.mem_map.1 hl
    exact hz s hs
  refine List.map_injective_iff.2 (fun _ _ => String.toList_inj.1) ?_
  rw [← hsplit hx hxn, ← hsplit hy hyn, h]

theorem not_unjoined_intercalate {x y : String} {zs : List String} :
    ¬Unjoined ("_".intercalate (x :: y :: zs)) := by
  rw [String.intercalate_cons_cons, Unjoined]
  simp

theorem eq_of_map_eq_map {α β : Type} {f g : α → β} : ∀ {xs ys : List α},
    (∀ x ∈ xs, ∀ y ∈ ys, f x = g y → x = y) → xs.map f = ys.map g → xs = ys
  | [], [], _, _ => rfl
  | [], _ :: _, _, h => by cases h
  | _ :: _, [], _, h => by cases h
  | x :: xs, y :: ys, hinj, h => by
    obtain ⟨hxy, h⟩ := List.cons.inj h
    rw [hinj x (List.mem_cons_self ..) y (List.mem_cons_self ..) hxy]
    refine congrArg (y :: ·) (eq_of_map_eq_map (fun a ha b hb => ?_) h)
    exact hinj a (List.mem_cons_of_mem _ ha) b (List.mem_cons_of_mem _ hb)

/-! ## Foreign keys -/

namespace ForeignKey

variable {k l : ForeignKey}

/-- The names that the default name joins. -/
def parts (k : ForeignKey) : List String :=
  k.table :: (k.columns ++ k.target :: (k.targetColumns ++ ["fk"]))

/-- A key whose default name can be read. -/
structure Readable (k : ForeignKey) : Prop where
  unjoined : ∀ n ∈ k.parts, Unjoined n
  columns : k.columns ≠ []
  targetColumns : k.targetColumns ≠ []
  length : k.columns.length = k.targetColumns.length

theorem defaultName_eq (hc : k.columns ≠ []) (ht : k.targetColumns ≠ []) :
    k.defaultName = "_".intercalate k.parts := by
  rw [parts, String.intercalate_cons_of_ne_nil (by simp),
    String.intercalate_append_of_ne_nil hc (by simp), String.intercalate_cons_of_ne_nil (by simp),
    String.intercalate_append_of_ne_nil ht (by simp), String.intercalate_singleton]
  simp only [defaultName, String.append_assoc]
  rfl

/-- **The default name tells tables and columns.** -/
theorem eq_of_defaultName (hk : k.Readable) (hl : l.Readable)
    (h : k.defaultName = l.defaultName) : k.table = l.table ∧ k.columns = l.columns ∧
      k.target = l.target ∧ k.targetColumns = l.targetColumns := by
  rw [defaultName_eq hk.columns hk.targetColumns, defaultName_eq hl.columns hl.targetColumns] at h
  have hparts := eq_of_intercalate hk.unjoined hl.unjoined (by simp [parts]) (by simp [parts]) h
  obtain ⟨ht, hrest⟩ := List.cons.inj hparts
  have hlength : k.columns.length = l.columns.length := by
    have := congrArg List.length hrest
    have hk' := hk.length
    have hl' := hl.length
    simp only [List.length_append, List.length_cons, List.length_nil] at this
    omega
  obtain ⟨hc, hrest⟩ := List.append_inj hrest hlength
  obtain ⟨hu, hrest⟩ := List.cons.inj hrest
  exact ⟨ht, hc, hu, List.append_cancel_right hrest⟩

theorem defaultName_congr (ht : k.table = l.table) (hc : k.columns = l.columns)
    (hu : k.target = l.target) (hd : k.targetColumns = l.targetColumns) :
    k.defaultName = l.defaultName := by
  rw [defaultName, defaultName, ht, hc, hu, hd]

end ForeignKey

/-! ## Indexes -/

theorem IndexPart.eq_of_value_eq {p q : IndexPart} (hp : p.isExpression = false)
    (hq : q.isExpression = false) (e : p.value = q.value) : p = q := by
  cases p with
  | expression => cases hp
  | column n =>
    cases q with
    | expression => cases hq
    | column m => exact congrArg IndexPart.column e

namespace Index

variable {i j : Index} {n : String}

/-- The names that the default name joins, if there is a default name. -/
def joined (i : Index) : List String :=
  i.table :: (i.parts.map IndexPart.value ++ [if i.isUnique then "unique" else "index"])

theorem defaultName?_eq_some_iff (hp : i.parts ≠ []) : i.defaultName? = some n ↔
    (∀ p ∈ i.parts, p.isExpression = false) ∧ "_".intercalate i.joined = n := by
  have hjoin (s : String) : "_".intercalate (i.table :: (i.parts.map IndexPart.value ++ [s])) =
      i.table ++ "_" ++ "_".intercalate (i.parts.map IndexPart.value) ++ "_" ++ s := by
    rw [String.intercalate_cons_of_ne_nil (by simp),
      String.intercalate_append_of_ne_nil (by simpa using hp) (by simp),
      String.intercalate_singleton]
    simp only [String.append_assoc]
  have hsign : ("_" ++ "unique" : String) = "_unique" ∧ ("_" ++ "index" : String) = "_index" := by
    decide
  rw [joined, hjoin]
  unfold defaultName? defaultUniqueName
  split
  next h =>
    simp only [reduceCtorEq, false_iff, not_and]
    intro hno
    obtain ⟨p, hp, he⟩ := List.any_eq_true.1 h
    rw [hno p hp] at he
    cases he
  next h =>
    rw [Bool.not_eq_true, List.any_eq_false] at h
    simp only [Bool.not_eq_true] at h
    rw [Option.some.injEq, and_iff_right h]
    split <;> simp only [String.append_assoc, ← hsign.1, ← hsign.2]

/-- **The default name tells the table, the columns and whether the index is unique.** -/
theorem eq_of_defaultName? (hi : i.parts ≠ []) (hj : j.parts ≠ [])
    (hui : ∀ s ∈ i.table :: i.parts.map IndexPart.value, Unjoined s)
    (huj : ∀ s ∈ j.table :: j.parts.map IndexPart.value, Unjoined s)
    (h : i.defaultName? = some n) (h' : j.defaultName? = some n) :
    i.table = j.table ∧ i.parts = j.parts ∧ i.isUnique = j.isUnique := by
  obtain ⟨hei, hni⟩ := (defaultName?_eq_some_iff hi).1 h
  obtain ⟨hej, hnj⟩ := (defaultName?_eq_some_iff hj).1 h'
  have hsign (b : Bool) : Unjoined (if b then "unique" else "index") := by cases b <;> decide
  have hall {k : Index} (hk : ∀ s ∈ k.table :: k.parts.map IndexPart.value, Unjoined s) :
      ∀ s ∈ k.joined, Unjoined s := fun s hs => by
    rw [joined, ← List.cons_append, List.mem_append, List.mem_singleton] at hs
    rcases hs with hs | rfl
    · exact hk s hs
    · exact hsign _
  have hparts := eq_of_intercalate (hall hui) (hall huj) (by simp [joined]) (by simp [joined])
    (hni.trans hnj.symm)
  obtain ⟨ht, hrest⟩ := List.cons.inj hparts
  obtain ⟨hp, hu⟩ := List.append_inj' hrest rfl
  refine ⟨ht, eq_of_map_eq_map (fun p hp q hq => ?_) hp, ?_⟩
  · exact IndexPart.eq_of_value_eq (hei p hp) (hej q hq)
  · have htell : ∀ a b : Bool,
        (if a then "unique" else "index") = (if b then "unique" else "index") → a = b := by decide
    exact htell _ _ (List.singleton_inj.1 hu)

theorem defaultName?_congr (ht : i.table = j.table) (hp : i.parts = j.parts)
    (hu : i.isUnique = j.isUnique) : i.defaultName? = j.defaultName? := by
  unfold defaultName?
  rw [ht, hp, hu]

end Index

/-! ## Renames in part -/

/-- No new name is in use already, and nothing gets the same new name twice. -/
structure Relabelling.Fresh (ρ : Relabelling) (c : Catalog) : Prop extends c.KeptApart ρ where
  new_table : ∀ {t}, c.hasTable t = true → ρ.table t ≠ t → c.hasTable (ρ.table t) = false
  new_column : ∀ {t n}, c.hasColumn t n = true → ρ.column t n ≠ n →
    c.hasColumn t (ρ.column t n) = false

/-- Tables either have all their old or all their new names, and so have the columns of a table. -/
structure Relabelling.Within (σ ρ : Relabelling) (c : Catalog) : Prop where
  table : (∀ t, c.hasTable t = true → σ.table t = t) ∨
    ∀ t, c.hasTable t = true → σ.table t = ρ.table t
  column : ∀ t, c.hasTable t = true →
    (∀ n, c.hasColumn t n = true → σ.column t n = n) ∨
      ∀ n, c.hasColumn t n = true → σ.column t n = ρ.column t n

namespace Relabelling

variable {c : Catalog} {ρ σ τ : Relabelling} {t u n m : String}

theorem within_none : Within .none ρ c :=
  ⟨.inl fun _ _ => rfl, fun _ _ => .inl fun _ _ => rfl⟩

theorem within_self : Within ρ ρ c :=
  ⟨.inr fun _ _ => rfl, fun _ _ => .inr fun _ _ => rfl⟩

/-- An old or new name of one table is no old or new name of another one. -/
theorem Within.eq_of_table_eq (hσ : σ.Within ρ c) (hτ : τ.Within ρ c) (hf : ρ.Fresh c)
    (ht : c.hasTable t = true) (hu : c.hasTable u = true) (e : σ.table t = τ.table u) : t = u := by
  have hnew {v w : String} (hv : c.hasTable v = true) (hw : c.hasTable w = true)
      (e : ρ.table v = w) : v = w := by
    by_contra hne
    have hfree := hf.new_table hv (e.trans_ne (Ne.symm hne))
    rw [e, hw] at hfree
    cases hfree
  rcases hσ.table with hs | hs <;> rcases hτ.table with hs' | hs' <;>
    rw [hs t ht, hs' u hu] at e
  · exact e
  · exact (hnew hu ht e.symm).symm
  · exact hnew ht hu e
  · exact hf.tables ht hu e

/-- An old or new name of one column is no old or new name of another one in its table. -/
theorem Within.eq_of_column_eq (hσ : σ.Within ρ c) (hτ : τ.Within ρ c) (hf : ρ.Fresh c)
    (ht : c.hasTable t = true) (hm : c.hasColumn t m = true) (hn : c.hasColumn t n = true)
    (e : σ.column t m = τ.column t n) : m = n := by
  have hnew {v w : String} (hv : c.hasColumn t v = true) (hw : c.hasColumn t w = true)
      (e : ρ.column t v = w) : v = w := by
    by_contra hne
    have hfree := hf.new_column hv (e.trans_ne (Ne.symm hne))
    rw [e, hw] at hfree
    cases hfree
  rcases hσ.column t ht with hs | hs <;> rcases hτ.column t ht with hs' | hs' <;>
    rw [hs m hm, hs' n hn] at e
  · exact e
  · exact (hnew hn hm e.symm).symm
  · exact hnew hm hn e
  · exact hf.columns hm hn e

end Relabelling

/-! ## Catalogs -/

/-- Neither the old nor the new name of a table or column has an underscore, and no index goes by a
name with an underscore just because it has no default name. -/
structure Catalog.Unjoined (c : Catalog) (ρ : Relabelling) : Prop where
  table : ∀ t, c.hasTable t = true →
    SchemaEvolution.Unjoined t ∧ SchemaEvolution.Unjoined (ρ.table t)
  column : ∀ t n, c.hasColumn t n = true →
    SchemaEvolution.Unjoined n ∧ SchemaEvolution.Unjoined (ρ.column t n)
  index : ∀ i ∈ c.indexes.rows, i.nameExplicit = false → i.defaultName? = none →
    SchemaEvolution.Unjoined i.name

instance (c : Catalog) (ρ : Relabelling) : Decidable (c.Unjoined ρ) :=
  decidable_of_iff
    ((∀ x ∈ c.tables.rows, SchemaEvolution.Unjoined x.name ∧
        SchemaEvolution.Unjoined (ρ.table x.name)) ∧
      (∀ x ∈ c.columns.rows, SchemaEvolution.Unjoined x.name ∧
        SchemaEvolution.Unjoined (ρ.column x.table x.name)) ∧
      ∀ i ∈ c.indexes.rows, i.nameExplicit = false → i.defaultName? = none →
        SchemaEvolution.Unjoined i.name) <| by
    constructor
    · intro ⟨ht, hc, hi⟩
      refine ⟨fun t h => ?_, fun t n h => ?_, hi⟩
      · obtain ⟨x, hx, e⟩ := Collection.hasKey_iff_exists.1 h
        exact Key.single.inj e ▸ ht x hx
      · obtain ⟨x, hx, e⟩ := Collection.hasKey_iff_exists.1 h
        obtain ⟨rfl, rfl⟩ := Key.scoped.inj e
        exact hc x hx
    · exact fun h => ⟨fun x hx => h.table _ (Collection.hasKey_key hx),
        fun x hx => h.column _ _ (Collection.hasKey_key hx), h.index⟩

/-- Foreign keys and indexes without a name of their own have their default names. -/
structure Catalog.DefaultNamed (c : Catalog) : Prop where
  foreignKeys : ∀ k ∈ c.foreignKeys.rows, k.nameExplicit = false → k.defaultName = k.name
  indexes : ∀ i ∈ c.indexes.rows, i.nameExplicit = false → ∀ n, i.defaultName? = some n → n = i.name

instance (c : Catalog) : Decidable c.DefaultNamed :=
  decidable_of_iff
    ((∀ k ∈ c.foreignKeys.rows, k.nameExplicit = false → k.defaultName = k.name) ∧
      ∀ i ∈ c.indexes.rows, i.nameExplicit = false → ∀ n ∈ i.defaultName?, n = i.name)
    ⟨fun ⟨hk, hi⟩ => ⟨hk, hi⟩, fun ⟨hk, hi⟩ => ⟨hk, hi⟩⟩

namespace Catalog

open Relabelling

variable {c : Catalog} {ρ σ : Relabelling}

theorem Unjoined.within_table (h : c.Unjoined ρ) (hσ : σ.Within ρ c) {t : String}
    (ht : c.hasTable t = true) : SchemaEvolution.Unjoined (σ.table t) := by
  rcases hσ.table with hs | hs <;> rw [hs t ht]
  · exact (h.table t ht).1
  · exact (h.table t ht).2

theorem Unjoined.within_column (h : c.Unjoined ρ) (hσ : σ.Within ρ c) {t n : String}
    (ht : c.hasTable t = true) (hn : c.hasColumn t n = true) :
    SchemaEvolution.Unjoined (σ.column t n) := by
  rcases hσ.column t ht with hs | hs <;> rw [hs n hn]
  · exact (h.column t n hn).1
  · exact (h.column t n hn).2

end Catalog

namespace Catalog

variable {c : Catalog} {ρ σ τ : Relabelling} {k l : ForeignKey} {i j : Index}

theorem Valid.foreignKey (h : c.Valid) (hk : k ∈ c.foreignKeys.rows) : k.columns ≠ [] ∧
    k.targetColumns ≠ [] ∧ k.columns.length = k.targetColumns.length :=
  ForeignKey.of_faults (h (.foreignKey k) (by simpa using hk) "")

theorem Valid.index (h : c.Valid) (hi : i ∈ c.indexes.rows) : i.parts ≠ [] :=
  Index.of_faults (h (.index i) (by simpa using hi) "")

/-- The default name of a valid foreign key of a closed catalog can be read all along. -/
theorem readable (hc : c.Closed) (hv : c.Valid) (hu : c.Unjoined ρ) (hσ : σ.Within ρ c)
    (hk : k ∈ c.foreignKeys.rows) : (relabel σ k).Readable := by
  obtain ⟨hcols, htcols, hlength⟩ := hv.foreignKey hk
  refine ⟨fun n hn => ?_, by simpa [relabel] using hcols, by simpa [relabel] using htcols,
    by simpa [relabel] using hlength⟩
  simp only [ForeignKey.parts, relabel, List.mem_cons, List.mem_append, List.mem_map,
    List.not_mem_nil, or_false] at hn
  rcases hn with rfl | ⟨m, hm, rfl⟩ | rfl | ⟨m, hm, rfl⟩ | rfl
  · exact hu.within_table hσ (hc.foreignKeys k hk)
  · exact hu.within_column hσ (hc.foreignKeys k hk) (hc.foreignKey_columns k hk m hm)
  · exact hu.within_table hσ (hc.targets k hk)
  · exact hu.within_column hσ (hc.targets k hk) (hc.target_columns k hk m hm)
  · decide

/-- **The same default name, before, after or in between, means the same tables and columns.** -/
theorem defaultName_eq_of_relabelled (hc : c.Closed) (hv : c.Valid) (hu : c.Unjoined ρ)
    (hf : ρ.Fresh c) (hσ : σ.Within ρ c) (hτ : τ.Within ρ c) (hk : k ∈ c.foreignKeys.rows)
    (hl : l ∈ c.foreignKeys.rows) (h : (relabel σ k).defaultName = (relabel τ l).defaultName) :
    k.table = l.table ∧ k.defaultName = l.defaultName := by
  obtain ⟨ht, hcols, htarget, htcols⟩ :=
    ForeignKey.eq_of_defaultName (readable hc hv hu hσ hk) (readable hc hv hu hτ hl) h
  have htable : k.table = l.table :=
    hσ.eq_of_table_eq hτ hf (hc.foreignKeys k hk) (hc.foreignKeys l hl) ht
  have htarget' : k.target = l.target :=
    hσ.eq_of_table_eq hτ hf (hc.targets k hk) (hc.targets l hl) htarget
  refine ⟨htable, ForeignKey.defaultName_congr htable ?_ htarget' ?_⟩
  · refine eq_of_map_eq_map (fun m hm n hn e => ?_) hcols
    rw [← htable] at e
    refine hσ.eq_of_column_eq hτ hf (hc.foreignKeys k hk) (hc.foreignKey_columns k hk m hm) ?_ e
    exact htable ▸ hc.foreignKey_columns l hl n hn
  · refine eq_of_map_eq_map (fun m hm n hn e => ?_) htcols
    rw [← htarget'] at e
    refine hσ.eq_of_column_eq hτ hf (hc.targets k hk) (hc.target_columns k hk m hm) ?_ e
    exact htarget' ▸ hc.target_columns l hl n hn

theorem unjoined_values (hc : c.Closed) (hu : c.Unjoined ρ) (hσ : σ.Within ρ c)
    (hi : i ∈ c.indexes.rows) (he : ∀ p ∈ (relabel σ i).parts, p.isExpression = false) :
    ∀ s ∈ (relabel σ i).table :: (relabel σ i).parts.map IndexPart.value,
      SchemaEvolution.Unjoined s := by
  intro s hs
  rcases List.mem_cons.1 hs with rfl | hs
  · exact hu.within_table hσ (hc.indexes i hi)
  obtain ⟨p, hp, rfl⟩ := List.mem_map.1 hs
  have hpe := he p hp
  obtain ⟨q, hq, rfl⟩ := List.mem_map.1 hp
  cases q with
  | expression => cases hpe
  | column n => exact hu.within_column hσ (hc.indexes i hi) (hc.index_columns i hi n hq)

theorem parts_relabel_ne_nil (hv : c.Valid) (hi : i ∈ c.indexes.rows) :
    (relabel σ i).parts ≠ [] := by
  simpa [relabel] using hv.index hi

theorem defaultName?_eq_of_relabelled (hc : c.Closed) (hv : c.Valid) (hu : c.Unjoined ρ)
    (hf : ρ.Fresh c) (hσ : σ.Within ρ c) (hτ : τ.Within ρ c) (hi : i ∈ c.indexes.rows)
    (hj : j ∈ c.indexes.rows) {n : String} (h : (relabel σ i).defaultName? = some n)
    (h' : (relabel τ j).defaultName? = some n) :
    i.table = j.table ∧ i.defaultName? = j.defaultName? := by
  have hie := ((Index.defaultName?_eq_some_iff (parts_relabel_ne_nil hv hi)).1 h).1
  have hje := ((Index.defaultName?_eq_some_iff (parts_relabel_ne_nil hv hj)).1 h').1
  obtain ⟨ht, hparts, hunique⟩ := Index.eq_of_defaultName? (parts_relabel_ne_nil hv hi)
    (parts_relabel_ne_nil hv hj) (unjoined_values hc hu hσ hi hie)
    (unjoined_values hc hu hτ hj hje) h h'
  have htable : i.table = j.table :=
    hσ.eq_of_table_eq hτ hf (hc.indexes i hi) (hc.indexes j hj) ht
  refine ⟨htable, Index.defaultName?_congr htable ?_ hunique⟩
  refine eq_of_map_eq_map (fun p hp q hq e => ?_) hparts
  cases p with
  | expression => cases q with
    | expression => exact e
    | column => cases e
  | column m => cases q with
    | expression => cases e
    | column n =>
      rw [← htable] at e
      refine congrArg IndexPart.column ?_
      refine hσ.eq_of_column_eq hτ hf (hc.indexes i hi) (hc.index_columns i hi m hp) ?_
        (IndexPart.column.inj e)
      exact htable ▸ hc.index_columns j hj n hq

theorem defaultName?_relabel_eq_none_iff : (relabel σ i).defaultName? = none ↔
    i.defaultName? = none := by
  have hany : (relabel σ i).parts.any IndexPart.isExpression =
      i.parts.any IndexPart.isExpression := by
    show (i.parts.map _).any _ = _
    rw [List.any_map]
    refine congrArg i.parts.any (funext fun p => ?_)
    cases p <;> rfl
  unfold Index.defaultName?
  rw [hany]
  split <;> simp

open Nameable

/-- **Default names tell foreign keys apart**, however much has been renamed. -/
theorem legible_foreignKeys (hc : c.Closed) (hv : c.Valid) (hu : c.Unjoined ρ) (hf : ρ.Fresh c)
    (hd : c.DefaultNamed) : c.foreignKeys.Legible ρ (·.Within ρ c) where
  none := Relabelling.within_none
  all := Relabelling.within_self
  declared k hk := by
    cases he : isExplicit k with
    | true => exact declaredName_of_isExplicit he
    | false => exact (declaredName_of_not_isExplicit he).trans (hd.foreignKeys k hk he)
  table_inj k hk l hl e := hf.tables (hc.foreignKeys k hk) (hc.foreignKeys l hl) e
  unique {σ τ} hσ hτ k hk l hl hke hle h := by
    have hle' : isExplicit (relabel τ l) = false := hle
    rw [declaredName_of_not_isExplicit hle'] at h
    obtain ⟨ht, hn⟩ :=
      defaultName_eq_of_relabelled hc hv hu hf hσ hτ hk hl (Option.some.inj h)
    rw [hd.foreignKeys k hk hke, hd.foreignKeys l hl hle] at hn
    exact Collection.eq_of_key_eq hk hl (congrArg₂ Key.scoped ht hn)

/-- **Default names tell indexes apart**, however much has been renamed. -/
theorem legible_indexes (hc : c.Closed) (hv : c.Valid) (hu : c.Unjoined ρ) (hf : ρ.Fresh c)
    (hd : c.DefaultNamed) : c.indexes.Legible ρ (·.Within ρ c) where
  none := Relabelling.within_none
  all := Relabelling.within_self
  declared i hi := by
    cases he : isExplicit i with
    | true => exact declaredName_of_isExplicit he
    | false =>
      rw [declaredName_of_not_isExplicit he]
      cases hn : default? i with
      | none => rfl
      | some n => exact hd.indexes i hi he n hn
  table_inj i hi j hj e := hf.tables (hc.indexes i hi) (hc.indexes j hj) e
  unique {σ τ} hσ hτ i hi j hj hie hje h := by
    have hje' : isExplicit (relabel τ j) = false := hje
    rw [declaredName_of_not_isExplicit hje'] at h
    cases hn : default? (relabel τ j) with
    | none =>
      -- The name of an index with an expression has no underscore, and every default name has one.
      rw [hn, Option.getD_none] at h
      have hj' := hu.index j hj hje (defaultName?_relabel_eq_none_iff.1 hn)
      obtain ⟨-, hjoin⟩ := (Index.defaultName?_eq_some_iff (parts_relabel_ne_nil hv hi)).1 h
      have hjoin : "_".intercalate (relabel σ i).joined = j.name := hjoin
      obtain ⟨p, ps, hp⟩ := List.exists_cons_of_ne_nil (parts_relabel_ne_nil (σ := σ) hv hi)
      rw [← hjoin, Index.joined, hp] at hj'
      exact absurd hj' not_unjoined_intercalate
    | some n =>
      rw [hn, Option.getD_some] at h
      obtain ⟨ht, hname⟩ := defaultName?_eq_of_relabelled hc hv hu hf hσ hτ hi hj h hn
      obtain ⟨m, hm⟩ := Option.ne_none_iff_exists'.1
        (fun e => by cases h.symm.trans (defaultName?_relabel_eq_none_iff.2 e))
      refine Collection.eq_of_key_eq hi hj (congrArg₂ Key.scoped ht ?_)
      rw [← hd.indexes i hi hie m hm, ← hd.indexes j hj hje m (hname ▸ hm)]

end Catalog

end SchemaEvolution
