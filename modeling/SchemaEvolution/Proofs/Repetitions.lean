import SchemaEvolution.Proofs.LoadReports

/-!
# Rows under keys that are taken

A list of rows may have several rows of a kind under one key. Those after the first one are its
repetitions (`Entity.repetitions`). A list repeats no row of a kind exactly if the keys of that kind
are distinct (`Entity.keysDistinct_iff`), and **rows that are appended leave the repetitions before
them as they are** (`Entity.exists_repetitions_append`).
-/

namespace SchemaEvolution.Entity

/-- The rows that have the key of an earlier row of their kind. -/
def repetitions (es : List Entity) : List Entity :=
  es.zipIdx.flatMap fun p => if p.1.Repeats (es.take p.2) then [p.1] else []

/-- No two rows of a kind share a key. -/
def KeysDistinct (es : List Entity) (kind : Kind) : Prop :=
  ((es.filter (·.kind = kind)).map key).Nodup
deriving Decidable

variable {e : Entity} {es ys : List Entity} {kind : Kind}

theorem repetitions_concat (es : List Entity) (e : Entity) :
    repetitions (es ++ [e]) = repetitions es ++ if e.Repeats es then [e] else [] :=
  flatMap_zipIdx_concat
    (fun (earlier : List Entity) (p : Entity × Nat) => if p.1.Repeats earlier then [p.1] else [])
    es e

/-- Only an appended row can be a further repetition. -/
theorem exists_repetitions_append (es ys : List Entity) :
    ∃ zs, repetitions (es ++ ys) = repetitions es ++ zs ∧ ∀ z ∈ zs, z ∈ ys := by
  induction ys using List.reverseRecOn with
  | nil => exact ⟨[], by simp, by simp⟩
  | append_singleton ys y ih =>
    obtain ⟨zs, hzs, hmem⟩ := ih
    refine ⟨zs ++ if y.Repeats (es ++ ys) then [y] else [], ?_, fun z hz => ?_⟩
    · rw [← List.append_assoc, repetitions_concat, hzs, List.append_assoc]
    · rcases List.mem_append.1 hz with hz | hz
      · exact List.mem_append_left _ (hmem z hz)
      · rw [List.mem_ite_nil_right] at hz
        exact List.mem_append_right _ hz.2

theorem mem_of_mem_repetitions (h : e ∈ repetitions es) : e ∈ es := by
  obtain ⟨zs, hzs, hmem⟩ := exists_repetitions_append [] es
  rw [List.nil_append] at hzs
  rw [hzs] at h
  exact hmem e (by simpa [repetitions] using h)

/-- **Nothing is repeated** if no two rows have one kind and one key. -/
theorem repetitions_eq_nil_iff : repetitions es = [] ↔ es.Pairwise fun x y => ¬x.SameKey y := by
  induction es using List.reverseRecOn with
  | nil => simp [repetitions]
  | append_singleton es e ih =>
    rw [repetitions_concat, List.append_eq_nil_iff, ih, pairwise_concat]
    simp

theorem keysDistinct_concat :
    KeysDistinct (es ++ [e]) kind ↔ KeysDistinct es kind ∧ (e.kind = kind → ¬e.Repeats es) := by
  unfold KeysDistinct
  by_cases h : e.kind = kind
  · subst h
    have hlast : [e].filter (·.kind = e.kind) = [e] := by simp
    rw [List.filter_append, hlast, List.map_append, List.map_singleton, List.nodup_append_comm,
      List.singleton_append, List.nodup_cons, and_comm]
    refine and_congr_right fun _ => ?_
    simp [Repeats, SameKey]
  · simp [List.filter_append, h]

/-- **The keys of a kind are distinct** if no row of the kind is repeated. -/
theorem keysDistinct_iff : KeysDistinct es kind ↔ ∀ e ∈ repetitions es, e.kind ≠ kind := by
  induction es using List.reverseRecOn with
  | nil => simp [KeysDistinct, repetitions]
  | append_singleton es e ih =>
    rw [keysDistinct_concat, repetitions_concat, List.forall_mem_append, ih]
    refine and_congr_right fun _ => ?_
    by_cases h : e.Repeats es <;> simp [h]

end SchemaEvolution.Entity
