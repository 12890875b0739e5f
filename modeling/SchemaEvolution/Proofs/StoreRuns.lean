import SchemaEvolution.Proofs.Stores

/-!
# Runs of a store

A run starts with an empty store and inserts, updates and deletes rows, whether that succeeds or
fails. What a step does to a store is what it does to the collection that the store represents
(`Store.Represents.step`), and so is what a run does (`Store.after_represents`).

**Keys lead to their rows** (`Store.after_keeps_keys`): whatever a run has done, the keys of the
rows are distinct, the position of a key is that of its row, and a key without a row has no
position. No run leaves a stale position behind.
-/

namespace SchemaEvolution

namespace Store

/-- One use of a store that may change it. -/
inductive Step (α κ : Type) {φ : Type} (ν : φ → Type) where
  | insert (row : α)
  | update (set : Assignment κ ν) (filter : Filter κ ν)
  | updateIf (set : Assignment κ ν) (selects : α → Bool)
  | delete (filter : Filter κ ν)

section

variable {α κ φ : Type} {ν : φ → Type} [Row α] [Attributed α φ ν] [Fielded α κ]

def step (s : Store α) : Step α κ ν → Store α
  | .insert row => (s.insert row).2
  | .update set filter => (s.update set filter).2
  | .updateIf set selects => (s.updateIf set selects).2
  | .delete filter => (s.delete filter).2

def after (steps : List (Step α κ ν)) : Store α :=
  steps.foldl step empty

end

end Store

namespace Collection

/-- The collection after an update; one that fails changes nothing. -/
def updated {α : Type} [Row α] (c : Collection α) (change : α → α) (selects : α → Bool) :
    Collection α :=
  match c.update change selects with
  | .ok (d, _) => d
  | .error _ => c

variable {α κ φ : Type} {ν : φ → Type} [Row α] [Attributed α φ ν] [Fielded α κ]

def step (c : Collection α) : Store.Step α κ ν → Collection α
  | .insert row => c.insert row
  | .update set filter => c.updated set.apply filter.selects
  | .updateIf set selects => c.updated set.apply selects
  | .delete filter => (c.delete filter.selects).1

def after (steps : List (Store.Step α κ ν)) : Collection α :=
  steps.foldl step empty

end Collection

namespace Store

section

variable {α κ φ : Type} {ν : φ → Type} [Row α] [Attributed α φ ν] [Fielded α κ]
  {s : Store α} {c : Collection α}

namespace Represents

theorem updated {α : Type} [Row α] {s : Store α} {c : Collection α} (h : s.Represents c)
    (change : α → α) (selects : α → Bool) :
    (s.commit change (s.selected selects)).2.Represents (c.updated change selects) := by
  rcases h.commit change selects with ⟨k, hc, hs⟩ | ⟨d, rows, t, hc, hs, ht⟩
  · rw [Collection.updated, hc, hs]
    exact h
  · rw [Collection.updated, hc, hs]
    exact ht

/-- **Steps keep a store in line with its collection.** -/
theorem step (h : s.Represents c) (step : Step α κ ν) :
    (s.step step).Represents (c.step step) := by
  cases step with
  | insert row => exact h.insert row
  | update set filter => exact h.updated set.apply filter.selects
  | updateIf set selects => exact h.updated set.apply selects
  | delete filter => exact (h.delete filter).2

theorem foldl_step (h : s.Represents c) (steps : List (Step α κ ν)) :
    (steps.foldl Store.step s).Represents (steps.foldl Collection.step c) := by
  induction steps generalizing s c with
  | nil => exact h
  | cons step steps ih => exact ih (h.step step)

end Represents

/-- **Runs keep a store in line with its collection.** -/
theorem after_represents (steps : List (Step α κ ν)) :
    (after steps).Represents (Collection.after steps) :=
  represents_empty.foldl_step steps

/-- **Keys lead to their rows** after every run: they are distinct, and a key is taken exactly if
some row has it, which is then the row that is found. A taken key keeps its row, a free one gets a
row after the others, and a deletion takes out the rows that are as asked. -/
theorem after_keeps_keys (steps : List (Step α κ ν)) :
    let s := after steps
    s.rows = (Collection.after steps).rows ∧
    (s.rows.map Row.key).Nodup ∧
    (∀ k x, s.get? k = some x ↔ x ∈ s.rows ∧ Row.key x = k) ∧
    (∀ k, s.get? k = none ↔ ∀ x ∈ s.rows, Row.key x ≠ k) ∧
    (∀ k, s.hasKey k = (s.get? k).isSome) ∧
    (∀ row x, s.get? (Row.key row) = some x → s.insert row = (.taken (some x), s)) ∧
    (∀ row, s.get? (Row.key row) = none →
      (s.insert row).1 = .stored row ∧ (s.insert row).2.rows = s.rows ++ [row]) ∧
    ∀ filter : Filter κ ν,
      (s.delete filter).1 = s.rows.filter filter.selects ∧
      (s.delete filter).2.rows = s.rows.filter fun x => !filter.selects x := by
  intro s
  have h : s.Represents (Collection.after steps) := after_represents steps
  have hget : ∀ k x, s.get? k = some x ↔ x ∈ s.rows ∧ Row.key x = k := fun k x => by
    rw [h.get?_eq, Collection.get?_eq_some_iff, h.rows]
  refine ⟨h.rows, h.sound.nodup, hget, fun k => ?_, fun k => ?_, fun row x hx => ?_,
    fun row hnone => ?_, fun filter => ?_⟩
  · simp only [Option.eq_none_iff_forall_ne_some, ne_eq, hget, not_and]
  · rw [h.get?_eq, h.hasKey_eq, Collection.hasKey]
  · exact h.insert_of_taken (h.get?_eq _ ▸ hx)
  · have hfree : (Collection.after steps).hasKey (Row.key row) = false := by
      rw [Collection.hasKey, ← h.get?_eq, hnone]
      rfl
    rw [h.insert_of_free hfree]
    exact ⟨rfl, rfl⟩
  · obtain ⟨hremoved, hkept⟩ := h.delete filter
    rw [hremoved, hkept.rows, h.rows]
    exact ⟨rfl, rfl⟩

end

end Store

end SchemaEvolution
