import SchemaEvolution.Schema.Catalog

/-!
# Valid rows

A row is valid if nothing is wrong with it, wherever it stands: the path of a row is part of what is
reported, not of what is checked (`Entity.faults_eq_nil_iff`). So one can find out whether all rows
of a catalog are valid (`Catalog.Valid`).
-/

namespace SchemaEvolution

namespace Fault

variable {α : Type} {path field value : String} {columns : List α}

theorem ofIdentifier_eq_nil_iff :
    ofIdentifier path field value = [] ↔ Text.trim value.toList ≠ [] := by
  rw [ofIdentifier, ite_eq_right_iff]
  simp

theorem ofColumns_eq_nil_iff : ofColumns path field columns = [] ↔ columns ≠ [] := by
  rw [ofColumns, ite_eq_right_iff, List.isEmpty_iff]
  simp

end Fault

/-- **Whether a row is valid does not depend on where it stands.** -/
theorem Entity.faults_eq_nil_iff (e : Entity) (path path' : String) :
    e.faults path = [] ↔ e.faults path' = [] := by
  have hif {p : Prop} [Decidable p] {f f' : Fault} :
      (if p then [] else [f]) = [] ↔ (if p then [] else [f']) = [] := by
    split <;> simp
  cases e <;>
    simp only [faults, elim, Row.faults, List.append_eq_nil_iff, Fault.ofIdentifier_eq_nil_iff,
      Fault.ofColumns_eq_nil_iff]
  exact and_congr_right fun _ => hif

theorem ForeignKey.of_faults {k : ForeignKey} {path : String} (h : Row.faults path k = []) :
    k.columns ≠ [] ∧ k.targetColumns ≠ [] ∧ k.columns.length = k.targetColumns.length := by
  simp only [Row.faults, List.append_eq_nil_iff, Fault.ofColumns_eq_nil_iff] at h
  obtain ⟨⟨⟨-, hcols⟩, htcols⟩, hlength⟩ := h
  exact ⟨hcols, htcols, by simpa using hlength⟩

theorem Index.of_faults {i : Index} {path : String} (h : Row.faults path i = []) :
    i.parts ≠ [] := by
  simp only [Row.faults, List.append_eq_nil_iff, Fault.ofColumns_eq_nil_iff] at h
  exact h.2

namespace Catalog

/-- Every row of the catalog is valid. -/
def Valid (c : Catalog) : Prop :=
  ∀ e ∈ c.entities, ∀ path, e.faults path = []

variable {c : Catalog}

theorem valid_iff (path : String) : c.Valid ↔ ∀ e ∈ c.entities, e.faults path = [] :=
  forall₂_congr fun e _ =>
    ⟨fun h => h path, fun h path' => (e.faults_eq_nil_iff path path').1 h⟩

instance : Decidable c.Valid :=
  decidable_of_iff _ (valid_iff "").symm

end Catalog

end SchemaEvolution
