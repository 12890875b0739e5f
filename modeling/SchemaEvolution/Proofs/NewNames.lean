import SchemaEvolution.Proofs.DefaultNames
import SchemaEvolution.Proofs.RenamedKeys

/-!
# New names and who knows them

`NewNames` says what tables, columns and views of a catalog are to be called. It fits a catalog
(`NewNames.Fits`) if what is renamed exists, once, and the new names are free, each taken once.

**Offers.** If a source and a target have the same rows under new names, what is offered is what has
got another name (`Collection.offer_of_moved`).

**Answers.** A resolver that knows the new names (`Resolver.Knows`) answers with these renames and
nothing else, and the answer is accepted (`Settled.returns_answer_of`). There is one for all new
names that fit (`NewNames.Fits.knows`).
-/

namespace SchemaEvolution

/-! ## New names -/

/-- New names are given to what exists, once, and they are free. -/
structure NameMap.Fits (m : NameMap) (used : String → Bool) : Prop where
  old_nodup : (m.map Prod.fst).Nodup
  new_nodup : (m.map Prod.snd).Nodup
  old_used : ∀ p ∈ m, used p.1 = true
  new_free : ∀ p ∈ m, used p.2 = false

instance (m : NameMap) (used : String → Bool) : Decidable (m.Fits used) :=
  decidable_of_iff
    ((m.map Prod.fst).Nodup ∧ (m.map Prod.snd).Nodup ∧ (∀ p ∈ m, used p.1 = true) ∧
      ∀ p ∈ m, used p.2 = false)
    ⟨fun ⟨ho, hn, hu, hf⟩ => ⟨ho, hn, hu, hf⟩, fun ⟨ho, hn, hu, hf⟩ => ⟨ho, hn, hu, hf⟩⟩

namespace NameMap.Fits

variable {m : NameMap} {used : String → Bool} {a b n : String}

theorem apply_eq (h : m.Fits used) (hab : (a, b) ∈ m) : m.apply a = b :=
  apply_of_mem h.old_nodup hab

theorem apply_ne_iff (h : m.Fits used) : m.apply n ≠ n ↔ (n, m.apply n) ∈ m := by
  constructor
  · exact (apply_cases h.old_nodup n).resolve_left
  · intro hn e
    have hused := h.old_used _ hn
    have hfree := h.new_free _ hn
    simp only at hused hfree
    rw [e, hused] at hfree
    cases hfree

theorem new_unused (h : m.Fits used) (hne : m.apply n ≠ n) : used (m.apply n) = false :=
  h.new_free _ (h.apply_ne_iff.1 hne)

theorem apply_inj (h : m.Fits used) (ha : used a = true) (hb : used b = true)
    (e : m.apply a = m.apply b) : a = b := by
  rcases apply_cases h.old_nodup a with hka | hma <;>
    rcases apply_cases h.old_nodup b with hkb | hmb
  · rw [← hka, ← hkb, e]
  · have hfree := h.new_free _ hmb
    simp only at hfree
    rw [← e, hka, ha] at hfree
    cases hfree
  · have hfree := h.new_free _ hma
    simp only at hfree
    rw [e, hkb, hb] at hfree
    cases hfree
  · exact congrArg Prod.fst (List.inj_on_of_nodup_map h.new_nodup hma hmb e)

/-- **The names that change are the ones that are listed.** -/
theorem perm_changed (h : m.Fits used) {names : List String} (hn : names.Nodup)
    (hused : ∀ n, n ∈ names ↔ used n = true) :
    ((names.filter fun n => m.apply n ≠ n).map fun n => (n, m.apply n)).Perm m := by
  refine (List.perm_ext_iff_of_nodup ?_ h.old_nodup.of_map).2 fun p => ?_
  · exact (hn.filter _).map fun _ _ e => congrArg Prod.fst e
  · simp only [List.mem_map, List.mem_filter, decide_eq_true_eq]
    constructor
    · rintro ⟨n, ⟨-, hne⟩, rfl⟩
      exact h.apply_ne_iff.1 hne
    · intro hp
      have e := h.apply_eq hp
      refine ⟨p.1, ⟨(hused _).2 (h.old_used p hp), h.apply_ne_iff.2 ?_⟩, ?_⟩ <;> rw [e]
      exact hp

theorem eq_of_eq_apply (h : m.Fits used) (ha : used a = true) (e : a = m.apply b) : a = b := by
  by_contra hne
  have hfree := h.new_unused (n := b) (e ▸ hne)
  rw [← e, ha] at hfree
  cases hfree

/-- **Rows that move are the listed ones.** The rows have names, and keys are made from names. -/
theorem perm_moved {β : Type} (h : m.Fits used) {xs : List β} (nm : β → String)
    (key : String → Key) (hkey : Function.Injective key) (hn : (xs.map nm).Nodup)
    (hused : ∀ n, n ∈ xs.map nm ↔ used n = true) :
    ((xs.filter fun x => key (nm x) ≠ key (m.apply (nm x))).map fun x =>
      (key (nm x), key (m.apply (nm x)))).Perm (m.map fun p => (key p.1, key p.2)) := by
  have hp := (h.perm_changed hn hused).map fun p => (key p.1, key p.2)
  rw [List.map_map, List.filter_map, List.map_map] at hp
  refine List.Perm.trans (.of_eq ?_) hp
  refine congrArg (List.map _) (List.filter_congr fun x _ => ?_)
  rw [Function.comp_apply, decide_eq_decide, hkey.ne_iff]
  exact ne_comm

end NameMap.Fits

/-- New names for tables, columns and views. A column is listed with the name that its table has
before. -/
structure NewNames where
  tables : NameMap := []
  columns : List (String × String × String) := []
  views : NameMap := []

namespace NewNames

/-- The new names of the columns of a table. -/
def columnsOf (r : NewNames) (table : String) : NameMap :=
  (r.columns.filter (·.1 == table)).map (·.2)

/-- What everything is called under its new name. -/
def relabelling (r : NewNames) : Relabelling where
  table := r.tables.apply
  column table := (r.columnsOf table).apply
  view := r.views.apply

/-- What is renamed exists and is renamed once; new names are free and are given once. -/
structure Fits (r : NewNames) (c : Catalog) : Prop where
  tables : r.tables.Fits c.hasTable
  columns : ∀ t, (r.columnsOf t).Fits (c.hasColumn t)
  views : r.views.Fits fun v => c.views.hasKey (.single v)

instance (r : NewNames) (c : Catalog) : Decidable (r.Fits c) :=
  decidable_of_iff
    (r.tables.Fits c.hasTable ∧ (∀ p ∈ r.columns, (r.columnsOf p.1).Fits (c.hasColumn p.1)) ∧
      r.views.Fits fun v => c.views.hasKey (.single v)) <| by
    refine ⟨fun ⟨ht, hc, hv⟩ => ⟨ht, fun t => ?_, hv⟩,
      fun h => ⟨h.tables, fun p _ => h.columns p.1, h.views⟩⟩
    by_cases hp : ∃ p ∈ r.columns, p.1 = t
    · obtain ⟨p, hp, rfl⟩ := hp
      exact hc p hp
    · have hnone : r.columnsOf t = [] := by
        rw [columnsOf, List.map_eq_nil_iff, List.filter_eq_nil_iff]
        exact fun p hpr => by simpa using fun e => hp ⟨p, hpr, e⟩
      rw [hnone]
      exact ⟨.nil, .nil, by simp, by simp⟩

/-- The statements that rename. Columns are renamed when their tables have their new names. -/
def statements (r : NewNames) : List Statement :=
  r.tables.map (fun (old, new) => .renameTable old new) ++
    r.columns.map (fun (table, old, new) => .renameColumn (r.tables.apply table) old new) ++
    r.views.map fun (old, new) => .renameView old new

variable {r : NewNames} {c : Catalog} {t old new : String}

theorem mem_columnsOf : (old, new) ∈ r.columnsOf t ↔ (t, old, new) ∈ r.columns := by
  simp [columnsOf]

theorem Fits.hasTable (h : r.Fits c) (hc : c.Owned) (hp : (t, old, new) ∈ r.columns) :
    c.hasTable t = true := by
  have hused := (h.columns t).old_used (old, new) (mem_columnsOf.2 hp)
  obtain ⟨x, hx, e⟩ := Collection.hasKey_iff_exists.1 hused
  exact (Key.scoped.inj e).1 ▸ hc.columns x hx

theorem Fits.fresh (h : r.Fits c) : r.relabelling.Fresh c where
  tables ht hu e := h.tables.apply_inj ht hu e
  columns hm hn e := (h.columns _).apply_inj hm hn e
  views hv hw e := h.views.apply_inj hv hw e
  new_table _ hne := h.tables.new_unused hne
  new_column _ hne := (h.columns _).new_unused hne

/-- The keys of a table before and after. -/
def tableKeys (r : NewNames) : List (Key × Key) :=
  r.tables.map fun p => (.single p.1, .single p.2)

/-- The keys of the columns of a table before and after, when the table has its new name. -/
def columnKeys (r : NewNames) (table : String) : List (Key × Key) :=
  (r.columnsOf table).map fun p =>
    (.scoped (r.tables.apply table) p.1, .scoped (r.tables.apply table) p.2)

/-- The keys of the columns of a table before and after, by the new name of the table. -/
def columnKeysAt (r : NewNames) (table : String) : List (Key × Key) :=
  (r.columns.filter fun p => r.tables.apply p.1 == table).map fun p =>
    (.scoped table p.2.1, .scoped table p.2.2)

def viewKeys (r : NewNames) : List (Key × Key) :=
  r.views.map fun p => (.single p.1, .single p.2)

/-- If columns of a table are renamed, no other table has its new name. -/
theorem Fits.columnKeysAt_apply (h : r.Fits c) (hc : c.Owned) (hne : r.columnKeys t ≠ []) :
    r.columnKeysAt (r.tables.apply t) = r.columnKeys t := by
  obtain ⟨p, hp⟩ := List.exists_mem_of_ne_nil _ hne
  obtain ⟨⟨old, new⟩, hp, -⟩ := List.mem_map.1 hp
  have ht := h.hasTable hc (mem_columnsOf.1 hp)
  have hcolumns : r.columns.filter (fun q => r.tables.apply q.1 == r.tables.apply t) =
      r.columns.filter (·.1 == t) := by
    refine List.filter_congr fun q hq => ?_
    rw [Bool.eq_iff_iff, beq_iff_eq, beq_iff_eq]
    exact ⟨h.tables.apply_inj (h.hasTable hc hq) ht, congrArg _⟩
  rw [columnKeysAt, hcolumns, columnKeys, columnsOf, List.map_map]
  rfl

end NewNames

/-! ## Offers -/

namespace Collection

variable {α β φ : Type} {ν : φ → Type} [Row α] [Attributed α φ ν] {source target : Collection α}
  {xs : List β} {f g : β → Key}

/-- **What is offered is what has another key**, if old keys and new ones do not get mixed up. -/
theorem offer_of_moved (hs : source.rows.map Row.key = xs.map f)
    (ht : target.rows.map Row.key = xs.map g) (hfg : ∀ x ∈ xs, ∀ y ∈ xs, f x = g y → x = y) :
    (source.difference target).dropped.map Row.key = (xs.filter fun x => f x ≠ g x).map f ∧
      (source.difference target).created.map Row.key = (xs.filter fun x => f x ≠ g x).map g := by
  have hkeys {c d : Collection α} {u v : β → Key} (hc : c.rows.map Row.key = xs.map u)
      (hd : d.rows.map Row.key = xs.map v) (huv : ∀ x ∈ xs, ∀ y ∈ xs, u x = v y → x = y) :
      (c.rows.filter fun row => !d.hasKey (Row.key row)).map Row.key =
        (xs.filter fun x => u x ≠ v x).map u := by
    have hfilter : (c.rows.filter fun row => !d.hasKey (Row.key row)).map Row.key =
        (c.rows.map Row.key).filter fun k => !d.hasKey k :=
      (List.filter_map (f := Row.key) (p := fun k => !d.hasKey k)).symm
    rw [hfilter, hc, List.filter_map]
    refine congrArg (List.map u) (List.filter_congr fun x hx => ?_)
    rw [Bool.eq_iff_iff, Function.comp_apply, Bool.not_eq_true', decide_eq_true_iff, ne_eq,
      ← Bool.not_eq_true, not_iff_not, hasKey_iff, hd, List.mem_map]
    constructor
    · rintro ⟨y, hy, e⟩
      obtain rfl := huv x hx y hy e.symm
      exact e.symm
    · exact fun e => ⟨x, hx, e.symm⟩
  refine ⟨hkeys hs ht hfg, ?_⟩
  refine (hkeys ht hs fun x hx y hy e => (hfg y hy x hx e.symm).symm).trans ?_
  exact congrArg (List.map g) (List.filter_congr fun x _ => decide_eq_decide.2 ne_comm)

end Collection

/-! ## Answers -/

section

variable {α σ : Type} [Row α]

/-- The old and the new keys of an offer are the given ones. -/
structure Offer.Holds (o : Offer α) (pairs : List (Key × Key)) : Prop where
  deleted : (o.deleted.map Row.key).Perm (pairs.map Prod.fst)
  created : (o.created.map Row.key).Perm (pairs.map Prod.snd)

/-- Asked about rows with certain old and new keys, the resolver says that they are the same rows
under new keys, and nothing else. -/
def Answers (ask : Offer α → StateM σ (Except String (Resolution α))) (pairs : List (Key × Key)) :
    Prop :=
  ∀ (o : Offer α) (a : σ), pairs ≠ [] → o.Holds pairs →
    ∃ (r : Resolution α) (b : σ), Id.run ((ask o).run a) = (.ok r, b) ∧ r.created = [] ∧
      r.deleted = [] ∧ (renamedKeys r.renamed).Perm pairs

/-- A resolver that knows the new names. It is asked about columns when tables have their new
names. -/
structure Resolver.Knows (by' : Resolver (StateM σ)) (r : NewNames) : Prop where
  tables : Answers by'.tables r.tableKeys
  columns : ∀ t, Answers (by'.columns (r.tables.apply t)) (r.columnKeys t)
  views : Answers by'.views r.viewKeys

/-- The renames among the rows of an offer that have given old and new keys. -/
def Offer.renamings (o : Offer α) (pairs : List (Key × Key)) : List (Renaming α) :=
  pairs.filterMap fun p => do
    let old ← o.deleted.find? fun row => Row.key row = p.1
    let new ← o.created.find? fun row => Row.key row = p.2
    return ⟨old, new⟩

theorem Offer.Holds.renamedKeys_renamings {o : Offer α} {pairs : List (Key × Key)}
    (h : o.Holds pairs) : renamedKeys (o.renamings pairs) = pairs := by
  have hfind {rows : List α} {ks : List Key} (hk : (rows.map Row.key).Perm ks) {k : Key}
      (hin : k ∈ ks) : ∃ row, rows.find? (fun row => Row.key row = k) = some row ∧
        Row.key row = k := by
    obtain ⟨row, hrow, e⟩ := List.mem_map.1 (hk.mem_iff.2 hin)
    have hsome : (rows.find? fun row => Row.key row = k).isSome :=
      List.find?_isSome.2 ⟨row, hrow, decide_eq_true e⟩
    obtain ⟨found, hfound⟩ := Option.isSome_iff_exists.1 hsome
    exact ⟨found, hfound, by simpa using List.find?_some hfound⟩
  rw [renamedKeys, Offer.renamings, List.map_filterMap]
  refine (List.filterMap_congr fun p hp => ?_).trans (List.filterMap_some ..)
  obtain ⟨old, hold, ho⟩ := hfind h.deleted (List.mem_map_of_mem hp)
  obtain ⟨new, hnew, hn⟩ := hfind h.created (List.mem_map_of_mem hp)
  simp only [hold, hnew, Option.bind_eq_bind, Option.bind_some, Option.pure_def, Option.map_some,
    ho, hn]

/-- Finds the given renames in every offer. -/
def NewNames.resolver (r : NewNames) : Resolver (StateM σ) where
  tables o := pure (.ok ⟨[], [], o.renamings r.tableKeys⟩)
  columns table o := pure (.ok ⟨[], [], o.renamings (r.columnKeysAt table)⟩)
  views o := pure (.ok ⟨[], [], o.renamings r.viewKeys⟩)

/-- **Whoever finds the renames knows the new names.** -/
theorem NewNames.Fits.knows {r : NewNames} {c : Catalog} (h : r.Fits c) (hc : c.Owned) :
    (r.resolver : Resolver (StateM σ)).Knows r := by
  have hanswers {α : Type} [Row α] {ask : Offer α → StateM σ (Except String (Resolution α))}
      {pairs : List (Key × Key)}
      (hask : ∀ o, pairs ≠ [] → ask o = pure (.ok ⟨[], [], o.renamings pairs⟩)) :
      Answers ask pairs := by
    intro o a hne ho
    rw [hask o hne]
    exact ⟨_, a, rfl, rfl, rfl, .of_eq ho.renamedKeys_renamings⟩
  refine ⟨hanswers fun _ _ => rfl, fun t => hanswers fun o hne => ?_, hanswers fun _ _ => rfl⟩
  rw [← h.columnKeysAt_apply hc hne]
  rfl

namespace Settled

variable {ask : Offer α → StateM σ (Except String (Resolution α))} {o : Offer α}
  {pairs : List (Key × Key)}

/-- **The answer of a resolver that knows the renames is accepted.** -/
theorem returns_answer_of (h : Answers ask pairs) (ho : o.Holds pairs) (a : σ) :
    ∃ (r : Resolution α) (b : σ), Returns (answer ask o) a r b ∧ r.created = [] ∧ r.deleted = [] ∧
      (renamedKeys r.renamed).Perm pairs := by
  unfold answer
  by_cases hp : pairs = []
  · subst hp
    have hdn : o.deleted = [] := List.map_eq_nil_iff.1 ho.deleted.eq_nil
    have hcn : o.created = [] := List.map_eq_nil_iff.1 ho.created.eq_nil
    rw [if_pos (by simp [hcn])]
    exact ⟨.unchanged o, a, returns_pure_iff.2 ⟨rfl, rfl⟩, hcn, hdn, .refl _⟩
  · obtain ⟨r, b, hr, hrc, hrd, hpairs⟩ := h o a hp ho
    have hne {x : List α} {y : List Key} (hx : (x.map Row.key).Perm y) (hy : y ≠ []) :
        x.isEmpty = false := by
      cases x with
      | nil => exact absurd hx.symm.eq_nil hy
      | cons => rfl
    rw [if_neg (by simp [hne ho.deleted (by simpa using hp), hne ho.created (by simpa using hp)])]
    have hv : r.verify o = .ok () := by
      refine Resolution.Accounts.verify ⟨ho.created.trans ?_, ho.deleted.trans ?_⟩
      · rw [Resolution.createdKeys, hrc, List.nil_append, List.map_map]
        simpa [renamedKeys, Function.comp_def] using (hpairs.map Prod.snd).symm
      · rw [Resolution.deletedKeys, hrd, List.nil_append, List.map_map]
        simpa [renamedKeys, Function.comp_def] using (hpairs.map Prod.fst).symm
    refine ⟨r, b, returns_bind_iff.2 ⟨.ok r, b, returns_state_iff.2 hr, ?_⟩, hrc, hrd, hpairs⟩
    simp only [hv]
    exact returns_pure_iff.2 ⟨rfl, rfl⟩

end Settled

end

end SchemaEvolution
