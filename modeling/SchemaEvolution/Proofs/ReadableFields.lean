import SchemaEvolution.Proofs.Json.DistinctKeys
import SchemaEvolution.Proofs.Lossless
import SchemaEvolution.Schema.Shape

/-!
# Fields of the right shape are read

The shape of rows is examined before they are read. The two go through the same fields apart from
each other: **a field that passes its examination is read** from what an object gives for a record
(`Given.Holds`). Words with a default are the exception: null passes there although it is not read
(`Shape.optional_word_isSome_iff`).

**Records within rows** are read from every object that passes (`Shape.Reads`), and so are lists of
them. No object has a name twice here, as it is in the values of documents.
-/

namespace SchemaEvolution

open Json

theorem isSome_mapM_iff {α β : Type} {f : α → Option β} {xs : List α} :
    (xs.mapM f).isSome = true ↔ ∀ x ∈ xs, (f x).isSome = true := by
  induction xs with
  | nil => simp
  | cons x xs ih =>
    rw [List.forall_mem_cons, ← ih, List.mapM_cons]
    cases f x <;> cases xs.mapM f <;> simp

namespace Shape

/-! ## Fields that pass are read -/

variable {g : Given} {ms : Members} {name path expected : String} {es : List Examination}
  {e : Examination}

theorem all_cons_eq_nil : all (e :: es) path ms = [] ↔ e path ms = [] ∧ all es path ms = [] := by
  simp [all]

theorem field_eq_nil {passes : Option Json → Bool} :
    field name expected passes path ms = [] ↔ passes (ms.find? name) = true := by
  rw [field]
  split <;> simp [*]

theorem isWord_eq_true_iff {α : Type} [Word α] {x : Option Json} :
    isWord α x = true ↔ ∃ s, x = some (.string s) ∧ ∃ w : α, Word.ofText? s = some w := by
  rcases x with _ | x
  · simp [isWord]
  · cases x <;> simp [isWord, Option.isSome_iff_exists]

theorem items_forall {examine : String → Json → List Fault} {xs : List Json}
    (h : items path examine xs = []) {x : Json} (hx : x ∈ xs) : ∃ path, examine path x = [] := by
  obtain ⟨i, hi⟩ := List.mem_iff_getElem?.1 hx
  exact ⟨_, List.flatMap_eq_nil_iff.1 h (x, i) (List.mk_mem_zipIdx_iff_getElem?.2 hi)⟩

section

variable {fields : List String} (hg : g.Holds fields ms)

include hg

theorem exists_required_string (h : string name path ms = [])
    (hf : fields.contains name = true) :
    ∃ s : String, g.required? name = some s := by
  have hx := field_eq_nil.1 h
  split at hx
  · next s hs => exact ⟨s, by rw [Given.required?, hg.find? _ hf, hs]; rfl⟩
  · cases hx

theorem exists_optional_string (h : optionalString name path ms = [])
    (hf : fields.contains name = true) :
    ∃ s : Option String, g.optional? name none = some s := by
  have hx := field_eq_nil.1 h
  split at hx
  · next hs => exact ⟨none, by rw [Given.optional?, hg.find? _ hf, hs]⟩
  · next hs => exact ⟨none, by rw [Given.optional?, hg.find? _ hf, hs]; rfl⟩
  · next s hs => exact ⟨some s, by rw [Given.optional?, hg.find? _ hf, hs]; rfl⟩
  · cases hx

theorem exists_required_bool (h : boolean name path ms = [])
    (hf : fields.contains name = true) :
    ∃ b : Bool, g.required? name = some b := by
  have hx := field_eq_nil.1 h
  split at hx
  · next b hb => exact ⟨b, by rw [Given.required?, hg.find? _ hf, hb]; rfl⟩
  · cases hx

theorem exists_optional_bool (h : optionalBoolean name path ms = []) (default : Bool)
    (hf : fields.contains name = true) :
    ∃ b : Bool, g.optional? name default = some b := by
  have hx := field_eq_nil.1 h
  split at hx
  · next hb => exact ⟨default, by rw [Given.optional?, hg.find? _ hf, hb]⟩
  · next b hb => exact ⟨b, by rw [Given.optional?, hg.find? _ hf, hb]; rfl⟩
  · cases hx

theorem exists_required_strings (h : strings name path ms = [])
    (hf : fields.contains name = true) :
    ∃ xs : List String, g.required? name = some xs := by
  rw [strings] at h
  split at h
  · next xs hxs =>
    have hread : (xs.mapM (JsonForm.read? (α := String) g.reading)).isSome = true := by
      refine isSome_mapM_iff.2 fun x hx => ?_
      obtain ⟨_, hx⟩ := items_forall h hx
      cases x with
      | string s => rfl
      | _ => cases hx
    obtain ⟨ss, hss⟩ := Option.isSome_iff_exists.1 hread
    exact ⟨ss, by rw [Given.required?, hg.find? _ hf, hxs]; exact hss⟩
  · cases h

section

variable {α : Type} [Word α]

theorem exists_required_word (h : word α name path ms = [])
    (hf : fields.contains name = true) :
    ∃ w : α, g.required? name = some w := by
  obtain ⟨s, hs, w, hw⟩ := isWord_eq_true_iff.1 (field_eq_nil.1 h)
  exact ⟨w, by rw [Given.required?, hg.find? _ hf, hs]; exact hw⟩

theorem exists_optional_word (h : optionalWord α name path ms = [])
    (hf : fields.contains name = true) :
    ∃ w : Option α, g.optional? name none = some w := by
  have hx := field_eq_nil.1 h
  split at hx
  · next hs => exact ⟨none, by rw [Given.optional?, hg.find? _ hf, hs]⟩
  · next hs => exact ⟨none, by rw [Given.optional?, hg.find? _ hf, hs]; rfl⟩
  · obtain ⟨s, hs, w, hw⟩ := isWord_eq_true_iff.1 hx
    refine ⟨some w, ?_⟩
    rw [Given.optional?, hg.find? _ hf, hs]
    exact congrArg (Option.map some) hw

/-- A word with a default is read unless it is null. -/
theorem optional_word_isSome_iff (h : optionalWord α name path ms = []) (default : α)
    (hf : fields.contains name = true) :
    (g.optional? name default).isSome = true ↔ ms.find? name ≠ some .null := by
  have hx := field_eq_nil.1 h
  split at hx
  · next hs => simp [Given.optional?, hg.find? _ hf, hs]
  · next hs =>
    have hnull : (JsonForm.read? g.reading .null : Option α) = none := rfl
    simp [Given.optional?, hg.find? _ hf, hs, hnull]
  · obtain ⟨s, hs, w, hw⟩ := isWord_eq_true_iff.1 hx
    have hread : (JsonForm.read? g.reading (.string s) : Option α) = some w := hw
    simp [Given.optional?, hg.find? _ hf, hs, hread]

end

end

/-! ## Records that pass are read -/

/-- A record is read from every object that passes the examination. -/
def Reads (α : Type) [Record α] (e : Examination) : Prop :=
  ∀ (reading : Reading) (ms : Members) (path : String), (ms.map Prod.fst).Nodup → e path ms = [] →
    ∃ a : α, JsonForm.read? reading (.object ms) = some a

section

variable {α : Type} [Record α] {fields : List String} (hg : g.Holds fields ms)
  (hd : ∀ m ∈ ms, m.2.hasDistinctKeys = true) (he : Reads α e)

include hg hd he

theorem exists_required_objects (h : objects name e path ms = [])
    (hf : fields.contains name = true) :
    ∃ xs : List α, g.required? name = some xs := by
  rw [objects] at h
  split at h
  · next xs hxs =>
    have hdx := hasDistinctKeys_array.1 (hd _ (mem_of_lookup_eq_some hxs))
    have hread : (xs.mapM (JsonForm.read? (α := α) g.reading)).isSome = true := by
      refine isSome_mapM_iff.2 fun x hx => Option.isSome_iff_exists.2 ?_
      obtain ⟨_, hpass⟩ := items_forall h hx
      split at hpass
      · exact he _ _ _ (hasDistinctKeys_object.1 (hdx _ hx)).1 hpass
      · cases hpass
    obtain ⟨as, has⟩ := Option.isSome_iff_exists.1 hread
    exact ⟨as, by rw [Given.required?, hg.find? _ hf, hxs]; exact has⟩
  · cases h

theorem exists_optional_object (h : optionalObject name e path ms = [])
    (hf : fields.contains name = true) :
    ∃ x : Option α, g.optional? name none = some x := by
  rw [optionalObject] at h
  split at h
  · next hx => exact ⟨none, by rw [Given.optional?, hg.find? _ hf, hx]⟩
  · next hx => exact ⟨none, by rw [Given.optional?, hg.find? _ hf, hx]; rfl⟩
  · next ns hx =>
    have hn := (hasDistinctKeys_object.1 (hd _ (mem_of_lookup_eq_some hx))).1
    obtain ⟨a, ha⟩ := he g.reading ns _ hn h
    refine ⟨some a, ?_⟩
    rw [Given.optional?, hg.find? _ hf, hx]
    exact congrArg (Option.map some) ha
  · cases h

end

end Shape

end SchemaEvolution
