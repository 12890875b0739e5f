import Mathlib.Data.List.Nodup
import SchemaEvolution.Change.Difference
import SchemaEvolution.Proofs.LosslessRows
import SchemaEvolution.Proofs.ReadableFields

/-!
# Alterations that come back

An alteration is written with its two rows and the deltas that it has, and no others. A delta
that is missing is read as none, and one that is there comes back with both of its values, even if
they are null. **So an alteration comes back with exactly its deltas** (`Alteration.ofGiven?_eq`),
if the values of all attributes come back and no two fields have one name (`LosslessAttributes`).
-/

namespace SchemaEvolution

open Json

/-! ## Deltas -/

instance {α : Type} [JsonForm α] [Lossless α] : LosslessRecord (Delta α) where
  depth := Lossless.depth α
  keys _ := rfl
  nodup := show ["from", "to"].Nodup by decide
  areText hd d := by
    simp only [toMembers, membersAreText, Bool.and_eq_true]
    exact ⟨Lossless.isText hd d.before, Lossless.isText hd d.after, trivial⟩
  ofGiven?_eq g d h := by
    simp only [toMembers, List.forall_mem_cons] at h
    simp [Record.ofGiven?, Given.required?, h]

/-! ## Alterations -/

/-- Attributes whose values come back, with fields of different names. -/
class LosslessAttributes (α : Type) {φ : Type} {ν : φ → Type} [JsonForm α] [Attributed α φ ν] where
  /-- How deep the documents of values nest at most. -/
  depth : Nat
  nodup : (Record.fields (Alteration α ν)).Nodup
  value : ∀ f : φ, @Lossless (ν f) (Attributed.form (α := α) f)
  depth_le : ∀ f, (value f).depth ≤ depth

instance : LosslessAttributes Column where
  depth := 1
  nodup := by decide
  value f := by cases f <;> infer_instance
  depth_le f := by cases f <;> decide

namespace Alteration

variable {α φ : Type} {ν : φ → Type} [Attributed α φ ν]

/-- The field of an attribute. -/
abbrev field (α : Type) {φ : Type} {ν : φ → Type} [Attributed α φ ν] (f : φ) : String :=
  Attributed.name (α := α) f

/-- The document of a delta of an attribute. -/
def deltaJson (α : Type) {φ : Type} {ν : φ → Type} [Attributed α φ ν] (f : φ) (d : Delta (ν f)) :
    Json :=
  letI := Attributed.form (α := α) f
  toJson d

theorem writeDelta?_eq (a : Alteration α ν) (f : φ) :
    a.writeDelta? f = (a.change f).map fun d => (field α f, deltaJson α f d) := rfl

/-- Deltas are written in the order of attributes, and some are left out. -/
theorem map_fst_deltas_sublist (a : Alteration α ν) (fs : List φ) :
    ((fs.filterMap a.writeDelta?).map Prod.fst).Sublist (fs.map (field α)) := by
  induction fs with
  | nil => exact .slnil
  | cons f fs ih =>
    cases h : a.change f with
    | none =>
      rw [List.filterMap_cons_none (by rw [writeDelta?_eq, h, Option.map_none])]
      exact ih.cons _
    | some d =>
      rw [List.filterMap_cons_some (by rw [writeDelta?_eq, h, Option.map_some])]
      exact ih.cons_cons _

variable [JsonForm α] [LosslessAttributes α] {A : Arrangement} {a : Alteration α ν} {ms : Members}
  {g : Given} {f : φ}

theorem nodup_toMembers (a : Alteration α ν) : ((toMembers a).map Prod.fst).Nodup :=
  LosslessAttributes.nodup.sublist (((map_fst_deltas_sublist a _).cons_cons _).cons_cons _)

/-- The field of an attribute stands among the members only if the attribute has a delta. -/
theorem field_not_mem (h : a.change f = none) : field α f ∉ (toMembers a).map Prod.fst := by
  have hfields := LosslessAttributes.nodup (α := α) (ν := ν)
  obtain ⟨hleft, hrest⟩ := List.nodup_cons.1 hfields
  obtain ⟨hright, hnames⟩ := List.nodup_cons.1 hrest
  have hmem (f : φ) : field α f ∈ (Attributed.all (α := α)).map (field α) :=
    List.mem_map_of_mem (Attributed.mem_all (α := α) f)
  have hdelta : field α f ∉ ((Attributed.all (α := α)).filterMap a.writeDelta?).map Prod.fst := by
    intro hm
    obtain ⟨m, hm, e⟩ := List.mem_map.1 hm
    obtain ⟨f', hf', hwrite⟩ := List.mem_filterMap.1 hm
    obtain ⟨d, hd, rfl⟩ := Option.map_eq_some_iff.1 hwrite
    obtain rfl : f' = f :=
      List.inj_on_of_nodup_map hnames hf' (Attributed.mem_all (α := α) f) e
    rw [h] at hd
    cases hd
  simp only [toMembers, List.map_cons, List.mem_cons, not_or]
  exact ⟨fun e => hleft (List.mem_cons_of_mem _ (e ▸ hmem f)), fun e => hright (e ▸ hmem f), hdelta⟩

/-- **Exactly the deltas that there are** are found by the fields of attributes. -/
theorem find?_field (h : A.Arranges (toMembers a) ms) (f : φ) :
    ms.find? (field α f) = (a.change f).map fun d => A.arrange (deltaJson α f d) := by
  cases hf : a.change f with
  | none =>
    refine List.lookup_eq_none_iff.2 fun m hm => bne_iff_ne.2 fun e => field_not_mem hf ?_
    rw [e]
    exact h.map_fst_perm.subset (List.mem_map_of_mem hm)
  | some d =>
    have hd : (field α f, deltaJson α f d) ∈ toMembers a := by
      refine List.mem_cons_of_mem _ (List.mem_cons_of_mem _ (List.mem_filterMap.2 ⟨f, ?_, ?_⟩))
      · exact Attributed.mem_all (α := α) f
      · rw [writeDelta?_eq, hf, Option.map_some]
    exact h.find?_eq (nodup_toMembers a) _ hd

theorem readDelta?_eq
    (h : g.members.find? (field α f) = (a.change f).map fun d => A.arrange (deltaJson α f d)) :
    readDelta? (α := α) g f = some (a.change f) := by
  let _ := Attributed.form (α := α) f
  let _ := LosslessAttributes.value (α := α) f
  show (g.optional? (field α f) none : Option (Option (Delta (ν f)))) = _
  rw [Given.optional?, h]
  cases a.change f with
  | none => rfl
  | some d => exact Lossless.read?_arrange A g.reading (some d)

theorem isText_deltaJson {depth : Nat} (hdepth : LosslessAttributes.depth α ν < depth) (f : φ)
    (d : Delta (ν f)) : (deltaJson α f d).isText depth = true := by
  let _ := Attributed.form (α := α) f
  let _ := LosslessAttributes.value (α := α) f
  refine Lossless.isText (α := Delta (ν f)) ?_ d
  exact Nat.succ_le_of_lt (Nat.lt_of_le_of_lt (LosslessAttributes.depth_le (α := α) f) hdepth)

/-- The rows and the deltas are read from the members, however these are arranged. -/
theorem ofGiven?_eq [Lossless α] (hg : g.Holds (Record.fields (Alteration α ν)) ms)
    (h : A.Arranges (toMembers a) ms) : Record.ofGiven? g = some a := by
  have hrows := h.find?_eq (nodup_toMembers a)
  simp only [toMembers, List.forall_mem_cons] at hrows
  have hleft : g.members.find? leftField = some (A.arrange (toJson a.left)) := by
    rw [hg.find? _ (by simp [Record.fields]), hrows.1]
  have hright : g.members.find? rightField = some (A.arrange (toJson a.right)) := by
    rw [hg.find? _ (by simp [Record.fields]), hrows.2.1]
  have hdelta (f : φ) : readDelta? (α := α) g f = some (a.change f) := by
    refine readDelta?_eq (A := A) ?_
    rw [hg.find? _ (by simp [Record.fields, Attributed.mem_all]), find?_field h]
  simp [Record.ofGiven?, Given.required?, hleft, hright, hdelta, Attributed.every_iff]

end Alteration

theorem Json.membersAreText_of_forall {depth : Nat} {ms : Members}
    (h : ∀ m ∈ ms, m.2.isText depth = true) : membersAreText depth ms = true := by
  induction ms with
  | nil => rfl
  | cons m ms ih =>
    obtain ⟨hm, hms⟩ := List.forall_mem_cons.1 h
    exact Bool.and_eq_true_iff.2 ⟨hm, ih hms⟩

section

variable {α φ : Type} {ν : φ → Type} [JsonForm α] [Lossless α] [Attributed α φ ν]
  [LosslessAttributes α]

instance : Lossless (Alteration α ν) where
  depth := max (Lossless.depth α) (LosslessAttributes.depth α ν + 1) + 1
  isText {depth} hdepth a := by
    have hrow : Lossless.depth α ≤ depth - 1 := by omega
    have hdelta : LosslessAttributes.depth α ν < depth - 1 := by omega
    have hmembers : ∀ m ∈ toMembers a, m.2.isText (depth - 1) = true := by
      simp only [toMembers, List.forall_mem_cons]
      refine ⟨Lossless.isText hrow a.left, Lossless.isText hrow a.right, fun m hm => ?_⟩
      obtain ⟨f, -, hwrite⟩ := List.mem_filterMap.1 hm
      obtain ⟨d, -, rfl⟩ := Option.map_eq_some_iff.1 hwrite
      exact Alteration.isText_deltaJson hdelta f d
    exact Bool.and_eq_true_iff.2 ⟨decide_eq_true (by omega), membersAreText_of_forall hmembers⟩
  read?_arrange A reading a := by
    have hn := Alteration.nodup_toMembers a
    obtain ⟨ms, hms, h⟩ := A.exists_arranges hn
    obtain ⟨g, hg, hread⟩ := exists_given (α := Alteration α ν) (h.nodup hn) reading
    show JsonForm.read? reading (A.arrange (.object (toMembers a))) = some a
    rw [hms, hread]
    exact Alteration.ofGiven?_eq hg h

end

end SchemaEvolution
