import Mathlib.Data.List.Induction
import SchemaEvolution.Proofs.RowsByKind

/-!
# What loading reports

Rows are loaded one after the other into a catalog that grows even with rows that are wrong. A key
is taken once a row of its kind has been seen under it (`Catalog.HasTaken.insert`), so a row whose
key is taken is one that has the key of an earlier row (`Catalog.loadFaults_eq_report`).

**Rows are accepted exactly if all are valid and no two of a kind share a key**
(`Catalog.ofEntities_accepts`). The catalog then lists them kind by kind, each kind in their order.
Otherwise everything that is wrong is reported, row by row.
-/

namespace SchemaEvolution

/-- What is listed for the items of a list, given the items before each of them, grows with the
list. -/
theorem flatMap_zipIdx_concat {α β : Type} (f : List α → α × Nat → List β) (xs : List α) (x : α) :
    ((xs ++ [x]).zipIdx.flatMap fun p => f ((xs ++ [x]).take p.2) p) =
      (xs.zipIdx.flatMap fun p => f (xs.take p.2) p) ++ f xs (x, xs.length) := by
  have hfirst : ∀ p ∈ xs.zipIdx, f ((xs ++ [x]).take p.2) p = f (xs.take p.2) p := by
    intro p hp
    have hlt : p.2 < xs.length := List.snd_lt_of_mem_zipIdx hp
    rw [List.take_append_of_le_length (Nat.le_of_lt hlt)]
  rw [List.zipIdx_append, List.flatMap_append]
  congr 1
  · exact List.flatMap_congr hfirst
  · simp

/-! ## Rows with one key -/

namespace Entity

/-- Nothing is wrong with the row, wherever it stands. -/
def Valid (e : Entity) : Prop :=
  ∀ path, e.faults path = []

/-- The rows are of one kind and have one key. -/
def SameKey (e e' : Entity) : Prop :=
  e.kind = e'.kind ∧ e.key = e'.key
deriving Decidable

/-- A row has the key of a row among others. -/
def Repeats (e : Entity) (es : List Entity) : Prop :=
  ∃ e' ∈ es, e'.SameKey e
deriving Decidable

variable {e e' e'' : Entity} {es : List Entity}

theorem SameKey.trans (h : e.SameKey e') (h' : e'.SameKey e'') : e.SameKey e'' :=
  ⟨h.1.trans h'.1, h.2.trans h'.2⟩

theorem repeats_concat : e.Repeats (es ++ [e']) ↔ e.Repeats es ∨ e'.SameKey e := by
  simp [Repeats, or_and_right, exists_or]

theorem pairwise_concat : (es ++ [e]).Pairwise (fun x y => ¬x.SameKey y) ↔
    es.Pairwise (fun x y => ¬x.SameKey y) ∧ ¬e.Repeats es := by
  simp [List.pairwise_append, Repeats]

/-- Rows kind by kind, each kind in their order. -/
def byKind (es : List Entity) : List Entity :=
  (Word.all : List Kind).flatMap fun k => es.filter (·.kind = k)

end Entity

namespace Catalog

variable {c : Catalog} {e : Entity} {es : List Entity}

theorem ofEntitiesLoose_concat (es : List Entity) (e : Entity) :
    ofEntitiesLoose (es ++ [e]) = (ofEntitiesLoose es).insert e :=
  List.foldl_concat ..

/-! ## Keys that are taken -/

/-- In the catalog the keys of given rows are taken, and no others. -/
def HasTaken (c : Catalog) (es : List Entity) : Prop :=
  ∀ e, (c.stored? e).isSome = true ↔ e.Repeats es

theorem hasTaken_empty : empty.HasTaken [] := by
  intro e
  cases e <;> simp [Entity.Repeats, stored?, find?, Entity.kind, Entity.elim, Row.kind] <;> rfl

/-- **A row that is loaded takes its key**, if that is not taken yet. -/
theorem HasTaken.insert (h : c.HasTaken es) (e : Entity) : (c.insert e).HasTaken (es ++ [e]) := by
  intro x
  rw [Entity.repeats_concat, ← h x]
  cases he : (c.stored? e).isSome with
  | true =>
    rw [insert_of_taken he]
    refine (or_iff_left_of_imp fun hx => (h x).2 ?_).symm
    obtain ⟨e', he', hkey⟩ := (h e).1 he
    exact ⟨e', he', hkey.trans hx⟩
  | false =>
    rw [isSome_stored?_iff, isSome_stored?_iff, rowsOf_insert he]
    simp only [List.mem_append, or_and_right, exists_or]
    refine or_congr_right ?_
    simp [Entity.SameKey]

theorem hasTaken_ofEntitiesLoose (es : List Entity) : (ofEntitiesLoose es).HasTaken es := by
  induction es using List.reverseRecOn with
  | nil => exact hasTaken_empty
  | append_singleton es e ih =>
    rw [ofEntitiesLoose_concat]
    exact ih.insert e

/-! ## The report -/

/-- What is wrong with the row at a position: its faults by itself, and then the fault that it has
the key of an earlier row of its kind. -/
def faultsAt (earlier : List Entity) (e : Entity) (i : Nat) : List Fault :=
  let path := "ddl[" ++ toString i ++ "]"
  e.faults path ++ if e.Repeats earlier then [⟨path, "unique " ++ e.describe⟩] else []

/-- What is wrong with rows, one after the other. -/
def report (es : List Entity) : List Fault :=
  es.zipIdx.flatMap fun p => faultsAt (es.take p.2) p.1 p.2

theorem report_concat (es : List Entity) (e : Entity) :
    report (es ++ [e]) = report es ++ faultsAt es e es.length :=
  flatMap_zipIdx_concat (fun earlier p => faultsAt earlier p.1 p.2) es e

theorem faultsAt_eq_nil_iff {i : Nat} : faultsAt es e i = [] ↔ e.Valid ∧ ¬e.Repeats es := by
  have hvalid (path : String) : e.faults path = [] ↔ e.Valid :=
    ⟨fun h path' => (e.faults_eq_nil_iff path path').1 h, fun h => h path⟩
  simp [faultsAt, hvalid]

/-- **Loading reports every fault and every repetition.** -/
theorem loadFaults_eq_report (es : List Entity) : loadFaults empty 0 es = report es := by
  induction es using List.reverseRecOn with
  | nil => rfl
  | append_singleton es e ih =>
    have htaken : ((es.foldl insert empty).stored? e).isSome = true ↔ e.Repeats es :=
      hasTaken_ofEntitiesLoose es e
    rw [loadFaults_append, ih, report_concat, Nat.zero_add]
    simp only [loadFaults, htaken, List.append_nil]
    rfl

/-- **Nothing is reported** exactly if all rows are valid and no two of a kind share a key. -/
theorem report_eq_nil_iff :
    report es = [] ↔ (∀ e ∈ es, e.Valid) ∧ es.Pairwise fun e e' => ¬e.SameKey e' := by
  induction es using List.reverseRecOn with
  | nil => simp [report]
  | append_singleton es e ih =>
    rw [report_concat, List.append_eq_nil_iff, ih, faultsAt_eq_nil_iff, Entity.pairwise_concat,
      List.forall_mem_append, List.forall_mem_singleton]
    exact and_and_and_comm

/-! ## Rows that are accepted -/

/-- **Rows of distinct keys are loaded behind each other.** -/
theorem rowsOf_ofEntitiesLoose (h : es.Pairwise fun e e' => ¬e.SameKey e') (k : Kind) :
    (ofEntitiesLoose es).rowsOf k = es.filter (·.kind = k) := by
  induction es using List.reverseRecOn with
  | nil => cases k <;> rfl
  | append_singleton es e ih =>
    obtain ⟨hes, he⟩ := Entity.pairwise_concat.1 h
    have hfree : ((ofEntitiesLoose es).stored? e).isSome = false := by
      rw [← Bool.not_eq_true, hasTaken_ofEntitiesLoose es e]
      exact he
    rw [ofEntitiesLoose_concat, rowsOf_insert hfree, ih hes, List.filter_append]

/-- **Rows are accepted exactly if all are valid and no two of a kind share a key.** The catalog
then lists them kind by kind, each kind in their order. Otherwise the report is complete: for one
row after the other it has the faults of the row by itself, and then the fault of a key that an
earlier row of its kind has. -/
theorem ofEntities_accepts (es : List Entity) :
    match ofEntities es with
    | .ok c =>
      ((∀ e ∈ es, e.Valid) ∧ es.Pairwise fun e e' => ¬e.SameKey e') ∧
      c.entities = Entity.byKind es
    | .error err =>
      ¬((∀ e ∈ es, e.Valid) ∧ es.Pairwise fun e e' => ¬e.SameKey e') ∧
      err = .invalid (report es) := by
  rw [ofEntities, loadFaults_eq_report, ← report_eq_nil_iff]
  cases h : report es with
  | nil =>
    refine ⟨rfl, ?_⟩
    rw [entities_eq_flatMap, Entity.byKind]
    exact List.flatMap_congr fun k _ => rowsOf_ofEntitiesLoose (report_eq_nil_iff.1 h).2 k
  | cons f fs => exact ⟨List.cons_ne_nil f fs, rfl⟩

end Catalog

end SchemaEvolution
