import SchemaEvolution.Proofs.Settlement

/-!
# Answers that do not account for an offer

An answer is checked by taking its keys off the offered ones, one occurrence after the other.

**While keys can be taken**, what has been taken and what is left make up the offer
(`Resolution.perm_of_take`). **A key that cannot be taken** occurs more often in the answer than in
the offer (`Resolution.count_lt_of_take`).

**So an answer passes exactly if it accounts for the offer** (`Resolution.verify_decides_accounts`):
on either side both have the same keys, each the same number of times. If it does not pass, the
breach names keys that are at fault (`Breach.Holds`).
-/

namespace SchemaEvolution

variable {α : Type} [Row α] {o : Offer α} {r : Resolution α}

/-- What a breach says of an answer to an offer: a key occurs too often in the answer, or these are
the keys that do not occur often enough. -/
def Breach.Holds (o : Offer α) (r : Resolution α) : Breach → Prop
  | .notCreated k => (o.created.map Row.key).count k < r.createdKeys.count k
  | .notDeleted k => (o.deleted.map Row.key).count k < r.deletedKeys.count k
  | .unanswered ks => ks ≠ [] ∧ ∀ k, k ∈ ks ↔
      r.createdKeys.count k < (o.created.map Row.key).count k ∨
        r.deletedKeys.count k < (o.deleted.map Row.key).count k

namespace Resolution

theorem count_lt_of_take : ∀ {ks pending : List Key} {k : Key},
    take pending ks = .error k → pending.count k < ks.count k
  | [], _, _, h => by cases h
  | key :: ks, pending, k, h => by
    rw [take] at h
    split at h
    next =>
      have hlt := count_lt_of_take h
      rw [List.count_erase] at hlt
      rw [List.count_cons]
      omega
    next hno =>
      cases h
      rw [List.count_eq_zero.2 hno, List.count_cons_self]
      omega

theorem mem_rest_iff {ks pending rest : List Key} (h : take pending ks = .ok rest) (k : Key) :
    k ∈ rest ↔ ks.count k < pending.count k := by
  rw [(perm_of_take h).count_eq, List.count_append, ← List.count_pos_iff]
  omega

/-- **A breach is right about the answer.** -/
theorem holds_of_verify {b : Breach} (h : r.verify o = .error b) : b.Holds o r := by
  unfold verify at h
  cases hc : take (o.created.map Row.key) r.createdKeys with
  | error k =>
    simp only [hc, Except.mapError, bind, Except.bind, Except.error.injEq] at h
    subst h
    exact count_lt_of_take hc
  | ok created =>
    cases hd : take (o.deleted.map Row.key) r.deletedKeys with
    | error k =>
      simp only [hc, hd, Except.mapError, bind, Except.bind, Except.error.injEq] at h
      subst h
      exact count_lt_of_take hd
    | ok deleted =>
      simp only [hc, hd, Except.mapError, bind, Except.bind] at h
      split at h
      next => cases h
      next keys hne =>
        cases h
        refine ⟨hne, fun k => ?_⟩
        rw [List.mem_append, List.mem_eraseDups, List.mem_eraseDups, mem_rest_iff hc,
          mem_rest_iff hd]

/-- **The answers that pass are those that account for the offer.** Any other answer is refused for
a breach of it. Rows of either may share their keys. -/
theorem verify_decides_accounts (o : Offer α) (r : Resolution α) :
    (r.verify o = .ok () ↔ r.Accounts o) ∧
      (¬r.Accounts o ↔ ∃ b, r.verify o = .error b ∧ b.Holds o r) := by
  have hpasses : r.verify o = .ok () ↔ r.Accounts o := ⟨accounts_of_verify, Accounts.verify⟩
  refine ⟨hpasses, ?_⟩
  rw [← hpasses]
  cases hv : r.verify o with
  | ok => simp
  | error b => simpa using holds_of_verify hv

end Resolution

end SchemaEvolution
