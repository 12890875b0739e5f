import SchemaEvolution.Proofs.Lossless
import SchemaEvolution.Schema.Shape

/-!
# The shape of what is written

What is written for a value has the shape that is asked of it. An examination is passed
(`Shape.Passes`) by members if it finds no fault with them, wherever they stand. **Each examination
of a field is passed by the value of a field of its type.**
-/

namespace SchemaEvolution.Shape

open Json

/-- The examination finds no fault with the members, wherever they stand. -/
def Passes (ms : Members) (e : Examination) : Prop :=
  ∀ path, e path ms = []

variable {ms : Members} {name expected : String} {es : List Examination} {e : Examination}

theorem passes_nil : Passes ms (all []) :=
  fun _ => rfl

theorem passes_cons (he : Passes ms e) (h : Passes ms (all es)) : Passes ms (all (e :: es)) :=
  fun path => List.append_eq_nil_iff.2 ⟨he path, h path⟩

theorem passes_field {passes : Option Json → Bool} (h : passes (ms.find? name) = true) :
    Passes ms (field name expected passes) :=
  fun _ => if_pos h

/-! ## Texts, flags and words -/

theorem passes_string {s : String} (h : ms.find? name = some (toJson s).sorted) :
    Passes ms (string name) :=
  passes_field (by rw [h]; rfl)

theorem passes_optionalString {s : Option String} (h : ms.find? name = some (toJson s).sorted) :
    Passes ms (optionalString name) :=
  passes_field (by rw [h]; cases s <;> rfl)

theorem passes_boolean {b : Bool} (h : ms.find? name = some (toJson b).sorted) :
    Passes ms (boolean name) :=
  passes_field (by rw [h]; rfl)

theorem passes_optionalBoolean {b : Bool} (h : ms.find? name = some (toJson b).sorted) :
    Passes ms (optionalBoolean name) :=
  passes_field (by rw [h]; rfl)

section

variable {α : Type} [Word α] [LawfulWord α]

theorem isWord_text (w : α) : isWord α (some (.string (Word.text w))) = true := by
  simp [isWord]

theorem passes_word {w : α} (h : ms.find? name = some (toJson w).sorted) :
    Passes ms (word α name) :=
  passes_field (by rw [h]; exact isWord_text w)

theorem passes_optionalWord {w : α} (h : ms.find? name = some (toJson w).sorted) :
    Passes ms (optionalWord α name) :=
  passes_field (by rw [h]; exact isWord_text w)

theorem passes_optionalWord_option {w : Option α} (h : ms.find? name = some (toJson w).sorted) :
    Passes ms (optionalWord α name) := by
  cases w with
  | none => exact passes_field (by rw [h]; rfl)
  | some w => exact passes_optionalWord (w := w) h

end

/-! ## Lists and objects -/

theorem items_eq_nil {α : Type} [JsonForm α] {path : String}
    {examine : String → Json → List Fault} (h : ∀ (a : α) path, examine path (toJson a).sorted = [])
    (xs : List α) : items path examine (xs.map fun a => (toJson a).sorted) = [] := by
  refine List.flatMap_eq_nil_iff.2 fun (x, i) hp => ?_
  have hx : x ∈ xs.map fun a => (toJson a).sorted :=
    (List.mem_zipIdx' hp).2 ▸ List.getElem_mem _
  obtain ⟨a, -, rfl⟩ := List.mem_map.1 hx
  exact h a _

theorem passes_strings {xs : List String} (h : ms.find? name = some (toJson xs).sorted) :
    Passes ms (strings name) := by
  intro path
  rw [strings, h, sorted_list]
  exact items_eq_nil (fun _ _ => rfl) xs

section

variable {α : Type} [Record α] [LosslessRecord α]

/-- The members of every value of a record type pass the examination. -/
def Suits (α : Type) [Record α] (e : Examination) : Prop :=
  ∀ (ms : Members) (a : α), (∀ m ∈ toMembers a, ms.find? m.1 = some m.2.sorted) → Passes ms e

/-- Members in order have the fields of the record. -/
theorem Suits.passes_sorted (h : Suits α e) (a : α) : Passes (sortedMembers [] (toMembers a)) e :=
  h _ a fun _ hm => lookup_sortedMembers (LosslessRecord.nodup_toMembers a) hm

theorem passes_objects (he : Suits α e) {xs : List α}
    (h : ms.find? name = some (toJson xs).sorted) : Passes ms (objects name e) := by
  intro path
  rw [objects, h, sorted_list]
  exact items_eq_nil (fun a path => he.passes_sorted a path) xs

theorem passes_optionalObject (he : Suits α e) {x : Option α}
    (h : ms.find? name = some (toJson x).sorted) : Passes ms (optionalObject name e) := by
  intro path
  rw [optionalObject, h]
  cases x with
  | none => rfl
  | some a => exact he.passes_sorted a _

end

end SchemaEvolution.Shape
