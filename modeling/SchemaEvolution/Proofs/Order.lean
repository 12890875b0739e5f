import SchemaEvolution.Plan.Phase
import SchemaEvolution.Proofs.Rows

/-!
# The order of statements

Scheduled statements are put in the order of their phases and repetitions are removed.

**Nothing is lost** (`mem_ordered`) and **nothing is repeated** (`nodup_ordered`). **The phases come
one after the other** (`ordered_eq_flatMap`), so a statement of an earlier phase stands before every
statement of a later one (`precedes_ordered`).
-/

namespace SchemaEvolution

/-- The position of a phase. -/
def Phase.rank (p : Phase) : Nat :=
  Phase.all.idxOf p

theorem Phase.pairwise_all : Phase.all.Pairwise fun p q => p.rank < q.rank := by
  decide

namespace Statement

variable {ss : List Statement} {s t : Statement} {p : Phase}

/-- In a list of statements, `s` stands before `t` wherever the two occur. -/
def Precedes (ss : List Statement) (s t : Statement) : Prop :=
  ∀ i j : Nat, ss[i]? = some s → ss[j]? = some t → i < j

/-- The statements of one phase, without repetitions. -/
def inPhase (ss : List Statement) (p : Phase) : List Statement :=
  distinct (ss.filter fun s => s.phase == p)

/-! ## Repetitions -/

theorem nodup_distinct (ss : List Statement) : (distinct ss).Nodup :=
  nodup_eraseDups ss

theorem mem_distinct : s ∈ distinct ss ↔ s ∈ ss :=
  List.mem_eraseDups

theorem distinct_append_of_disjoint {rs ss : List Statement} (h : ∀ s ∈ ss, s ∉ rs) :
    distinct (rs ++ ss) = distinct rs ++ distinct ss := by
  have hr : ss.removeAll rs = ss :=
    List.filter_eq_self.2 fun s hs => by simpa using h s hs
  rw [distinct, List.eraseDups_append, hr]
  rfl

/-! ## Phases -/

theorem mem_inPhase : s ∈ inPhase ss p ↔ s ∈ ss ∧ s.phase = p := by
  simp [inPhase, mem_distinct]

theorem nodup_inPhase (ss : List Statement) (p : Phase) : (inPhase ss p).Nodup :=
  nodup_distinct _

/-- Repetitions never reach from one phase into another one. -/
theorem distinct_flatMap_phases (ss : List Statement) :
    ∀ ps : List Phase, ps.Nodup →
      distinct (ps.flatMap fun p => ss.filter fun s => s.phase == p) = ps.flatMap (inPhase ss)
  | [], _ => rfl
  | p :: ps, h => by
    obtain ⟨hp, hps⟩ := List.nodup_cons.1 h
    rw [List.flatMap_cons, List.flatMap_cons, distinct_append_of_disjoint,
      distinct_flatMap_phases ss ps hps]
    · rfl
    · intro s hs hsp
      obtain ⟨q, hq, hsq⟩ := List.mem_flatMap.1 hs
      simp only [List.mem_filter, beq_iff_eq] at hsp hsq
      exact hp (hsp.2 ▸ hsq.2 ▸ hq)

/-- **Ordered statements are the statements of the first phase, then of the second, and so on.** -/
theorem ordered_eq_flatMap (ss : List Statement) : ordered ss = Phase.all.flatMap (inPhase ss) :=
  distinct_flatMap_phases ss Phase.all (by decide)

theorem mem_ordered : s ∈ ordered ss ↔ s ∈ ss := by
  simp [ordered_eq_flatMap, mem_inPhase, Phase.mem_all]

theorem nodup_ordered (ss : List Statement) : (ordered ss).Nodup :=
  nodup_distinct _

theorem pairwise_ordered (ss : List Statement) :
    (ordered ss).Pairwise fun s t => s.phase.rank ≤ t.phase.rank := by
  rw [ordered_eq_flatMap, List.pairwise_flatMap]
  constructor
  · intro p _
    refine List.pairwise_of_forall_mem_list fun s hs t ht => ?_
    have hst : s.phase = t.phase := (mem_inPhase.1 hs).2.trans (mem_inPhase.1 ht).2.symm
    exact Nat.le_of_eq (congrArg Phase.rank hst)
  · refine Phase.pairwise_all.imp fun {p q} hpq s hs t ht => ?_
    rw [(mem_inPhase.1 hs).2, (mem_inPhase.1 ht).2]
    exact Nat.le_of_lt hpq

/-- **A statement of an earlier phase stands before every statement of a later one.** -/
theorem precedes_ordered (h : s.phase.rank < t.phase.rank) : Precedes (ordered ss) s t := by
  intro i j hi hj
  by_contra hij
  obtain ⟨hi', rfl⟩ := List.getElem?_eq_some_iff.1 hi
  obtain ⟨hj', rfl⟩ := List.getElem?_eq_some_iff.1 hj
  rcases Nat.eq_or_lt_of_le (Nat.not_lt.1 hij) with rfl | hlt
  · exact Nat.lt_irrefl _ h
  · exact Nat.not_lt.2 (List.pairwise_iff_getElem.1 (pairwise_ordered ss) j i hj' hi' hlt) h

end Statement

end SchemaEvolution
