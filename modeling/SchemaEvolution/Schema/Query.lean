import SchemaEvolution.Schema.Field

/-!
# Filters and assignments

A filter asks something of some fields of a row, and an assignment gives some fields new values. A
field that is left out matches whatever it holds, and keeps its value.
-/

namespace SchemaEvolution

/-! ## Filters -/

/-- What is asked of the value of a field. -/
inductive Match (β : Type) where
  | eq (x : β)
  | ne (x : β)
  | oneOf (xs : List β)
  | holds (p : β → Bool)

/-- Whether a value is as asked. -/
def Match.test {β : Type} [DecidableEq β] : Match β → β → Bool
  | .eq y, x => x == y
  | .ne y, x => x != y
  | .oneOf ys, x => ys.contains x
  | .holds p, x => p x

/-- What is asked of the fields of a row. -/
abbrev Filter (κ : Type) {φ : Type} (ν : φ → Type) : Type :=
  (f : Field κ φ) → Option (Match (f.Value ν))

/-- Whether every field of a row is as asked. -/
def Filter.selects {α κ φ : Type} {ν : φ → Type} [Row α] [Attributed α φ ν]
    [Fielded α κ] (filter : Filter κ ν) (row : α) : Bool :=
  (Field.all α).all fun f =>
    letI := Field.decEq α f
    (filter f).all fun m => m.test (f.get row)

/-! ## Assignments -/

/-- A new value of a field: a constant, or a function of the old value. -/
inductive Assign (β : Type) where
  | to (x : β)
  | map (g : β → β)

/-- The new value. -/
def Assign.apply {β : Type} : Assign β → β → β
  | .to x, _ => x
  | .map g, old => g old

/-- New values of the fields of a row. -/
abbrev Assignment (κ : Type) {φ : Type} (ν : φ → Type) : Type :=
  (f : Field κ φ) → Option (Assign (f.Value ν))

namespace Assignment

variable {α κ φ : Type} {ν : φ → Type} [Row α] [Attributed α φ ν] [Fielded α κ]

/-- The row with a new value of one field, if it gets one. -/
def assign (set : Assignment κ ν) (row : α) (f : Field κ φ) : α :=
  match set f with
  | none => row
  | some a => f.set (a.apply (f.get row)) row

/-- The row with the new values of its fields, assigned one after the other. -/
def apply (set : Assignment κ ν) (row : α) : α :=
  (Field.all α).foldl set.assign row

/-- The value that a field of a row gets. -/
def valueOf (set : Assignment κ ν) (f : Field κ φ) (row : α) : f.Value ν :=
  (set f).elim (f.get row) fun a => a.apply (f.get row)

variable {set : Assignment κ ν} {row : α}

theorem get_assign (f : Field κ φ) : f.get (set.assign row f) = set.valueOf f row := by
  unfold assign valueOf
  cases set f with
  | none => rfl
  | some a => exact Fielded.get_set f _ row

theorem get_assign_of_ne {f g : Field κ φ} (h : g ≠ f) :
    g.get (set.assign row f) = g.get row := by
  unfold assign
  cases set f with
  | none => rfl
  | some a => exact Fielded.get_set_of_ne f g _ row h

theorem get_foldl_assign_of_not_mem {g : Field κ φ} {fs : List (Field κ φ)} (h : g ∉ fs) :
    g.get (fs.foldl set.assign row) = g.get row := by
  induction fs generalizing row with
  | nil => rfl
  | cons f fs ih =>
    simp only [List.mem_cons, not_or] at h
    rw [List.foldl_cons, ih h.2, get_assign_of_ne h.1]

theorem get_foldl_assign_of_mem {g : Field κ φ} {fs : List (Field κ φ)} (hn : fs.Nodup)
    (h : g ∈ fs) : g.get (fs.foldl set.assign row) = set.valueOf g row := by
  induction fs generalizing row with
  | nil => cases h
  | cons f fs ih =>
    obtain ⟨hf, hfs⟩ := List.nodup_cons.1 hn
    rw [List.foldl_cons]
    rcases List.mem_cons.1 h with rfl | hg
    · rw [get_foldl_assign_of_not_mem hf, get_assign]
    · have hne : g ≠ f := fun e => hf (e ▸ hg)
      rw [ih hfs hg, valueOf, valueOf, get_assign_of_ne hne]

/-- **Fields are assigned at once**: every one gets its value from the old row. -/
theorem get_apply (set : Assignment κ ν) (f : Field κ φ) (row : α) :
    f.get (set.apply row) = set.valueOf f row :=
  get_foldl_assign_of_mem Fielded.nodup_all (Field.mem_all f)

end Assignment

end SchemaEvolution
