import SchemaEvolution.Proofs.RowsByKind
import SchemaEvolution.Proofs.SameRows
import SchemaEvolution.Proofs.StoreRuns

/-!
# Equality as sets of rows

Equality is decided from one side: both sides have as many rows, and every row of the left one is
found on the right under its key. Since the keys on both sides are distinct, that is enough for the
rows to be the same up to their order, after every run of a store (`Store.after_sameRows_iff`) and
for every catalog (`Catalog.sameRows_iff_perm`).

**So equality is an equivalence, and equal sides cannot be told apart** by looking up keys
(`Catalog.equality_of_row_sets`).
-/

namespace SchemaEvolution

/-! ## Collections and stores -/

/-- **Collections are equal if they find the same rows.** -/
theorem Collection.sameRows_iff_get? {α : Type} [Row α] [DecidableEq α] {c d : Collection α} :
    c.sameRows d = true ↔ ∀ k, c.get? k = d.get? k := by
  rw [sameRows_iff_perm]
  constructor
  · intro h k
    refine Option.ext fun x => ?_
    rw [get?_eq_some_iff, get?_eq_some_iff, h.mem_iff]
  · intro h
    refine (List.perm_ext_iff_of_nodup c.nodup_rows d.nodup_rows).2 fun x => ?_
    have hfound : c.get? (Row.key x) = some x ↔ d.get? (Row.key x) = some x := by rw [h]
    simpa [get?_eq_some_iff] using hfound

namespace Store

variable {α : Type} [Row α] [DecidableEq α]

theorem Represents.sameRows_eq {s t : Store α} {c d : Collection α} (hs : s.Represents c)
    (ht : t.Represents d) : s.sameRows t = c.sameRows d := by
  rw [Bool.eq_iff_iff, sameRows, Collection.sameRows, Bool.and_eq_true, Bool.and_eq_true,
    decide_eq_true_eq, decide_eq_true_eq, hs.rows, ht.rows]
  simp only [List.all_eq_true, decide_eq_true_eq, ht.get?_eq, Collection.size]

variable {κ φ : Type} {ν : φ → Type} [Attributed α φ ν] [Fielded α κ]
  (steps steps' : List (Step α κ ν))

/-- **After two runs the stores are equal** if their rows are the same up to their order. -/
theorem after_sameRows_iff :
    (after steps).sameRows (after steps') = true ↔
      (after steps').rows.Perm (after steps).rows := by
  have h := after_represents steps
  have h' := after_represents steps'
  rw [h.sameRows_eq h', Collection.sameRows_iff_perm, h.rows, h'.rows]
  exact List.perm_comm

/-- After two runs the stores are equal if they say the same of every key. -/
theorem after_sameRows_iff_answers :
    (after steps).sameRows (after steps') = true ↔
      ∀ k, (after steps).get? k = (after steps').get? k ∧
        (after steps).hasKey k = (after steps').hasKey k := by
  have h := after_represents steps
  have h' := after_represents steps'
  simp only [h.sameRows_eq h', h.get?_eq, h'.get?_eq, h.hasKey_eq, h'.hasKey_eq,
    Collection.sameRows_iff_get?]
  exact forall_congr' fun k => ⟨fun hk => ⟨hk, congrArg Option.isSome hk⟩, And.left⟩

end Store

/-! ## Catalogs -/

namespace Catalog

variable {c d : Catalog} {e : Entity} {kind : Kind} {key : Key}

/-- Whether a row of a kind has a key. -/
def hasKey (c : Catalog) (kind : Kind) (key : Key) : Bool :=
  match kind with
  | .tables => c.tables.hasKey key
  | .columns => c.columns.hasKey key
  | .primaryKeys => c.primaryKeys.hasKey key
  | .foreignKeys => c.foreignKeys.hasKey key
  | .indexes => c.indexes.hasKey key
  | .checks => c.checks.hasKey key
  | .views => c.views.hasKey key
  | .viewColumns => c.viewColumns.hasKey key

/-- Two catalogs say the same of every key. -/
structure SameAnswers (c d : Catalog) : Prop where
  find? : ∀ kind key, c.find? kind key = d.find? kind key
  hasKey : ∀ kind key, c.hasKey kind key = d.hasKey kind key
  primaryKeyOf? : ∀ table, c.primaryKeyOf? table = d.primaryKeyOf? table

theorem find?_eq_some_iff : c.find? kind key = some e ↔ e ∈ c.rowsOf kind ∧ e.key = key := by
  cases kind <;>
    simp only [find?, rowsOf, Option.map_eq_some_iff, Collection.get?_eq_some_iff, List.mem_map]
  all_goals
    constructor
    · rintro ⟨x, ⟨hx, rfl⟩, rfl⟩
      exact ⟨⟨x, hx, rfl⟩, rfl⟩
    · rintro ⟨⟨x, hx, rfl⟩, rfl⟩
      exact ⟨x, ⟨hx, rfl⟩, rfl⟩

theorem hasKey_eq_isSome_find? (c : Catalog) (kind : Kind) (key : Key) :
    c.hasKey kind key = (c.find? kind key).isSome := by
  cases kind <;> simp only [hasKey, find?, Collection.hasKey, Option.isSome_map]

theorem find?_primaryKeys (c : Catalog) (table : String) :
    c.find? .primaryKeys (.single table) = (c.primaryKeyOf? table).map .primaryKey :=
  rfl

theorem sameRows_iff_perm_rowsOf :
    c.sameRows d = true ↔ ∀ kind, (c.rowsOf kind).Perm (d.rowsOf kind) := by
  have hmap {α : Type} {f : α → Entity} {xs ys : List α} (hf : Function.Injective f) :
      (xs.map f).Perm (ys.map f) ↔ xs.Perm ys := List.map_perm_map_iff hf
  simp only [sameRows, Bool.and_eq_true, Collection.sameRows_iff_perm]
  constructor
  · rintro ⟨⟨⟨⟨⟨⟨⟨ht, hc⟩, hp⟩, hf⟩, hi⟩, hk⟩, hv⟩, hw⟩ kind
    cases kind
    all_goals exact List.Perm.map _ ‹_›
  · intro h
    refine ⟨⟨⟨⟨⟨⟨⟨?_, ?_⟩, ?_⟩, ?_⟩, ?_⟩, ?_⟩, ?_⟩, ?_⟩
    · exact (hmap Part.lists_tables.inj).1 (h .tables)
    · exact (hmap Part.lists_columns.inj).1 (h .columns)
    · exact (hmap Part.lists_primaryKeys.inj).1 (h .primaryKeys)
    · exact (hmap Part.lists_foreignKeys.inj).1 (h .foreignKeys)
    · exact (hmap Part.lists_indexes.inj).1 (h .indexes)
    · exact (hmap Part.lists_checks.inj).1 (h .checks)
    · exact (hmap Part.lists_views.inj).1 (h .views)
    · exact (hmap Part.lists_viewColumns.inj).1 (h .viewColumns)

/-- **Catalogs are equal if all their rows are the same** up to their order. -/
theorem sameRows_iff_perm : c.sameRows d = true ↔ d.entities.Perm c.entities := by
  rw [sameRows_iff_perm_rowsOf, List.perm_comm]
  constructor
  · intro h
    rw [entities_eq_flatMap, entities_eq_flatMap]
    exact List.Perm.flatMap_left _ fun kind _ => h kind
  · intro h kind
    rw [← filter_kind_entities, ← filter_kind_entities]
    exact h.filter _

/-- **Catalogs are equal if they say the same of every key.** -/
theorem sameRows_iff_sameAnswers : c.sameRows d = true ↔ c.SameAnswers d := by
  rw [sameRows_iff_perm_rowsOf]
  constructor
  · intro h
    have hfind : ∀ kind key, c.find? kind key = d.find? kind key := fun kind key =>
      Option.ext fun e => by rw [find?_eq_some_iff, find?_eq_some_iff, (h kind).mem_iff]
    refine ⟨hfind, fun kind key => ?_, fun table => ?_⟩
    · rw [hasKey_eq_isSome_find?, hasKey_eq_isSome_find?, hfind]
    · have hkey := hfind .primaryKeys (.single table)
      rw [find?_primaryKeys, find?_primaryKeys] at hkey
      exact Option.map_injective Part.lists_primaryKeys.inj hkey
  · intro h kind
    -- Rows of distinct keys are distinct, so it is enough that both sides have the same ones.
    refine (List.perm_ext_iff_of_nodup (c.nodup_key_rowsOf kind).of_map
      (d.nodup_key_rowsOf kind).of_map).2 fun e => ?_
    have hfound : c.find? kind e.key = some e ↔ d.find? kind e.key = some e := by rw [h.find?]
    simpa [find?_eq_some_iff] using hfound

theorem sameRows_equivalence : Equivalence fun c d : Catalog => c.sameRows d = true where
  refl _ := sameRows_iff_perm.2 (.refl _)
  symm h := sameRows_iff_perm.2 (sameRows_iff_perm.1 h).symm
  trans h h' := sameRows_iff_perm.2 ((sameRows_iff_perm.1 h').trans (sameRows_iff_perm.1 h))

/-- **Equality is equality of row sets.** Whatever two runs have done to collections of a kind,
these are equal exactly if the rows of the one are those of the other in some order, which is the
case exactly if every key leads to the same row in both. So are catalogs, and thus equality of
catalogs is an equivalence, under which no key, and no table asked for its primary key, tells two
catalogs apart. -/
theorem equality_of_row_sets :
    (∀ {α κ φ : Type} {ν : φ → Type} [Row α] [DecidableEq α] [Attributed α φ ν] [Fielded α κ]
      (steps steps' : List (Store.Step α κ ν)),
      let s := Store.after steps
      let t := Store.after steps'
      (s.sameRows t = true ↔ t.rows.Perm s.rows) ∧
      (s.sameRows t = true ↔ ∀ k, s.get? k = t.get? k ∧ s.hasKey k = t.hasKey k)) ∧
    (∀ c d : Catalog, c.sameRows d = true ↔ d.entities.Perm c.entities) ∧
    (Equivalence fun c d : Catalog => c.sameRows d = true) ∧
    ∀ c d : Catalog, c.sameRows d = true ↔ c.SameAnswers d := by
  refine ⟨fun steps steps' => ⟨?_, ?_⟩, fun _ _ => sameRows_iff_perm, sameRows_equivalence,
    fun _ _ => sameRows_iff_sameAnswers⟩
  · exact Store.after_sameRows_iff steps steps'
  · exact Store.after_sameRows_iff_answers steps steps'

end Catalog

end SchemaEvolution
