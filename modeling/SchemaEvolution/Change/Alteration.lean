import SchemaEvolution.Schema.Attribute

/-!
# Alterations

Two rows under one key are compared attribute by attribute. A `Delta` is a value before and
after; an `Alteration` holds the two rows and a delta for each attribute that changes. Deltas may
be removed from an alteration (`prune`); one without any delta left is no alteration.
-/

namespace SchemaEvolution

/-- A value before and after a change. -/
structure Delta (α : Type) where
  before : α
  after : α
deriving DecidableEq, Repr

namespace Delta

/-- The change from one value to another one. -/
def between? {α : Type} [DecidableEq α] (before after : α) : Option (Delta α) :=
  if before = after then none else some ⟨before, after⟩

end Delta

instance {α : Type} [JsonForm α] : Record (Delta α) where
  fields := ["from", "to"]
  toMembers d := [("from", toJson d.before), ("to", toJson d.after)]
  ofGiven? g := do return { before := ← g.required? "from", after := ← g.required? "to" }

/-- The deltas of some attributes. -/
abbrev Change {φ : Type} (ν : φ → Type) : Type :=
  (f : φ) → Option (Delta (ν f))

/-- Two rows under one key and the change from the one to the other. -/
structure Alteration (α : Type) {φ : Type} (ν : φ → Type) where
  left : α
  right : α
  change : Change ν

namespace Alteration

variable {α φ : Type} {ν : φ → Type}

/-- The alteration of a row in which no attribute has a delta. -/
def unchanged (left right : α) : Alteration α ν :=
  ⟨left, right, fun _ => none⟩

/-- The deltas of all attributes in which two rows differ. -/
def between [Attributed α φ ν] (left right : α) : Alteration α ν :=
  ⟨left, right, fun f =>
    letI := Attributed.decEq (α := α) f
    Delta.between? (Attributed.get f left) (Attributed.get f right)⟩

def isEmpty [Attributed α φ ν] (a : Alteration α ν) : Bool :=
  Attributed.every α fun f => (a.change f).isNone

/-- The alteration, if an attribute has a delta. -/
def nonempty? [Attributed α φ ν] (a : Alteration α ν) : Option (Alteration α ν) :=
  if a.isEmpty then none else some a

/-- Removes the deltas that make no difference. -/
def prune [Attributed α φ ν] (redundant : (f : φ) → Delta (ν f) → Bool) (a : Alteration α ν) :
    Option (Alteration α ν) :=
  nonempty? ⟨a.left, a.right, fun f => (a.change f).filter fun d => !redundant f d⟩

def leftField : String := "$left"

def rightField : String := "$right"

/-- The delta that is given for an attribute. -/
def readDelta? [Attributed α φ ν] (g : Given) (f : φ) : Option (Option (Delta (ν f))) :=
  letI := Attributed.form (α := α) f
  g.optional? (Attributed.name (α := α) f) none

/-- The member of a delta, if there is one. -/
def writeDelta? [Attributed α φ ν] (a : Alteration α ν) (f : φ) : Option (String × Json) :=
  letI := Attributed.form (α := α) f
  (a.change f).map fun d => (Attributed.name (α := α) f, toJson d)

end Alteration

section

variable {α φ : Type} {ν : φ → Type} [Attributed α φ ν]

instance [DecidableEq α] : DecidableEq (Alteration α ν) := fun a b =>
  letI (f : φ) : DecidableEq (ν f) := Attributed.decEq (α := α) f
  if h : (a.left = b.left ∧ a.right = b.right) ∧
      Attributed.every α (fun f => decide (a.change f = b.change f)) = true then
    isTrue (by
      obtain ⟨⟨hl, hr⟩, hc⟩ := h
      rw [Attributed.every_iff] at hc
      cases a; cases b
      simp only [decide_eq_true_eq] at hl hr hc
      rw [Alteration.mk.injEq]
      exact ⟨hl, hr, funext hc⟩)
  else
    isFalse (by
      rintro rfl
      exact h ⟨⟨rfl, rfl⟩, Attributed.every_iff.2 fun f => by simp⟩)

instance [JsonForm α] : Record (Alteration α ν) where
  fields := Alteration.leftField :: Alteration.rightField ::
    (Attributed.all (α := α)).map (Attributed.name (α := α))
  toMembers a := (Alteration.leftField, toJson a.left) :: (Alteration.rightField, toJson a.right) ::
    (Attributed.all (α := α)).filterMap a.writeDelta?
  ofGiven? g := do
    let left ← g.required? Alteration.leftField
    let right ← g.required? Alteration.rightField
    if Attributed.every α fun f => (Alteration.readDelta? (α := α) g f).isSome then
      return ⟨left, right, fun f => (Alteration.readDelta? (α := α) g f).getD none⟩
    else none

end

end SchemaEvolution
