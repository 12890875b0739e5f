import SchemaEvolution.Schema.Row

/-!
# Attributes

The attributes of a row are its fields outside the key: what can change while the row stays the
same row. A type of rows lists its attributes once; comparing rows, recording changes and
assigning values go through that list.
-/

namespace SchemaEvolution

/-- The attributes `φ` of the rows `α`, with values of the types `ν`. -/
class Attributed (α : Type) (φ : outParam Type) (ν : outParam (φ → Type)) where
  /-- All attributes, in order. -/
  all : List φ
  mem_all : ∀ f, f ∈ all
  /-- The field of an attribute in a document. -/
  name : φ → String
  get : (f : φ) → α → ν f
  set : (f : φ) → ν f → α → α
  decEq : (f : φ) → DecidableEq (ν f)
  form : (f : φ) → JsonForm (ν f)

namespace Attributed

variable {α φ : Type} {ν : φ → Type} [Attributed α φ ν]

/-- Whether all attributes have a property. -/
def every (α : Type) {φ : Type} {ν : φ → Type} [Attributed α φ ν] (p : φ → Bool) : Bool :=
  (all (α := α)).all p

theorem every_iff {p : φ → Bool} : every α p = true ↔ ∀ f, p f = true := by
  simp only [every, List.all_eq_true]
  exact ⟨fun h f => h f (mem_all (α := α) f), fun h f _ => h f⟩

end Attributed

end SchemaEvolution
