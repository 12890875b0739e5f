import SchemaEvolution.Comparison.Prune
import SchemaEvolution.Proofs.Rows

/-!
# What a difference holds

The rows and alterations in a difference, described by the two collections that are compared.

**An alteration counts** (`Alteration.effective?`) if some delta between the two rows is left after
the redundant ones are removed. The alterations that are left after pruning are exactly the
effective ones between rows that share a key (`Collection.mem_effective_iff`).
-/

namespace SchemaEvolution

variable {α φ : Type} {ν : φ → Type} [Attributed α φ ν]

/-! ## Alterations that count -/

/-- Which deltas of an alteration make no difference. -/
abbrev Redundancy (α : Type) {φ : Type} (ν : φ → Type) : Type :=
  Alteration α ν → (f : φ) → Delta (ν f) → Bool

namespace Alteration

/-- The alteration between two rows by the deltas that are not redundant, if there are any. -/
def effective? (R : Redundancy α ν) (left right : α) : Option (Alteration α ν) :=
  (between left right).prune (R (between left right))

theorem eq_of_nonempty? {a b : Alteration α ν} (h : a.nonempty? = some b) : b = a := by
  unfold nonempty? at h
  split at h
  · cases h
  · exact (Option.some.inj h).symm

theorem isEmpty_eq_true_iff {a : Alteration α ν} : a.isEmpty = true ↔ ∀ f, a.change f = none := by
  simp [isEmpty, Attributed.every_iff]

theorem nonempty?_eq_none_iff {a : Alteration α ν} :
    a.nonempty? = none ↔ ∀ f, a.change f = none := by
  rw [← isEmpty_eq_true_iff]
  unfold nonempty?
  split <;> simp_all

theorem effective?_sides {R : Redundancy α ν} {l r : α} {a : Alteration α ν}
    (h : effective? R l r = some a) : a.left = l ∧ a.right = r := by
  rw [eq_of_nonempty? h]
  exact ⟨rfl, rfl⟩

theorem effective?_change {R : Redundancy α ν} {l r : α} {a : Alteration α ν}
    (h : effective? R l r = some a) (f : φ) :
    a.change f = ((between l r).change f).filter fun d => !R (between l r) f d := by
  rw [eq_of_nonempty? h]

theorem effective?_self (R : Redundancy α ν) (w : α) : effective? R w w = none := by
  refine nonempty?_eq_none_iff.2 fun f => ?_
  have hsame : (between w w).change f = none := by simp [between, Delta.between?]
  show ((between w w).change f).filter _ = none
  rw [hsame]
  rfl

/-- An alteration counts if an attribute changes by a delta that is not redundant. -/
theorem exists_effective? {R : Redundancy α ν} {l r : α} (f : φ)
    (hne : Attributed.get (α := α) f l ≠ Attributed.get f r)
    (hR : ∀ d, R (between l r) f d = false) :
    ∃ a, effective? R l r = some a ∧
      a.change f = some ⟨Attributed.get f l, Attributed.get f r⟩ := by
  have hc : (between l r).change f = some ⟨Attributed.get f l, Attributed.get f r⟩ := by
    simp [between, Delta.between?, hne]
  cases ha : effective? R l r with
  | none =>
    have := nonempty?_eq_none_iff.1 ha f
    simp [hc, Option.filter, hR] at this
  | some a => exact ⟨a, rfl, by rw [effective?_change ha, hc]; simp [Option.filter, hR]⟩

end Alteration

/-! ## Differences of collections -/

namespace Collection

variable [Row α] {c d : Collection α} {x : α} {a : Alteration α ν}

theorem mem_created_iff :
    x ∈ (c.difference d).created ↔ x ∈ d.rows ∧ c.hasKey (Row.key x) = false := by
  simp [difference]

theorem mem_dropped_iff :
    x ∈ (c.difference d).dropped ↔ x ∈ c.rows ∧ d.hasKey (Row.key x) = false := by
  simp [difference]

theorem mem_altered_iff :
    a ∈ (c.difference d).altered ↔ ∃ l ∈ c.rows, ∃ r ∈ d.rows,
      Row.key l = Row.key r ∧ (Alteration.between l r).nonempty? = some a := by
  simp only [difference, List.mem_filterMap, Option.bind_eq_some_iff, get?_eq_some_iff]
  constructor
  · intro h
    obtain ⟨r, hr, l, ⟨hl, hk⟩, ha⟩ := h
    exact ⟨l, hl, r, hr, hk, ha⟩
  · intro h
    obtain ⟨l, hl, r, hr, hk, ha⟩ := h
    exact ⟨r, hr, l, ⟨hl, hk⟩, ha⟩

/-- **The alterations left after pruning are the effective ones between rows under one key.** -/
theorem mem_effective_iff {R : Redundancy α ν} :
    a ∈ (c.difference d).altered.filterMap (fun b => b.prune (R b)) ↔
      ∃ l ∈ c.rows, ∃ r ∈ d.rows, Row.key l = Row.key r ∧ Alteration.effective? R l r = some a := by
  simp only [List.mem_filterMap, mem_altered_iff]
  constructor
  · intro h
    obtain ⟨b, ⟨l, hl, r, hr, hk, hb⟩, ha⟩ := h
    rw [Alteration.eq_of_nonempty? hb] at ha
    exact ⟨l, hl, r, hr, hk, ha⟩
  · intro h
    obtain ⟨l, hl, r, hr, hk, ha⟩ := h
    -- If nothing differed, nothing could be left after pruning.
    cases hb : (Alteration.between l r).nonempty? with
    | none =>
      have hnone : Alteration.effective? R l r = none := by
        refine Alteration.nonempty?_eq_none_iff.2 fun f => ?_
        show ((Alteration.between l r).change f).filter _ = none
        rw [Alteration.nonempty?_eq_none_iff.1 hb f]
        rfl
      rw [hnone] at ha
      cases ha
    | some b =>
      refine ⟨b, ⟨l, hl, r, hr, hk, hb⟩, ?_⟩
      rw [Alteration.eq_of_nonempty? hb]
      exact ha

/-! ## Keys of altered rows -/

/-- There are rows of both sides under a key between which some delta counts. -/
def AltersAt (R : Redundancy α ν) (c d : Collection α) (k : Key) : Prop :=
  ∃ l ∈ c.rows, ∃ r ∈ d.rows, Row.key l = k ∧ Row.key r = k ∧
    ∃ a, Alteration.effective? R l r = some a

section

variable {R : Redundancy α ν} {alts : List (Alteration α ν)} {k : Key} {l r : α}

theorem AltersAt.source (h : AltersAt R c d k) : c.hasKey k = true := by
  obtain ⟨l, hl, _, _, hlk, _⟩ := h
  exact hasKey_iff_exists.2 ⟨l, hl, hlk⟩

theorem AltersAt.target (h : AltersAt R c d k) : d.hasKey k = true := by
  obtain ⟨_, _, r, hr, _, hrk, _⟩ := h
  exact hasKey_iff_exists.2 ⟨r, hr, hrk⟩

theorem effective?_eq_none_of_not_altersAt (hl : l ∈ c.rows) (hr : r ∈ d.rows)
    (hk : Row.key l = Row.key r) (h : ¬AltersAt R c d (Row.key l)) :
    Alteration.effective? R l r = none := by
  cases ha : Alteration.effective? R l r with
  | none => rfl
  | some a => exact absurd ⟨l, hl, r, hr, rfl, hk.symm, a, ha⟩ h

theorem exists_left_iff (h : ∀ a, a ∈ alts ↔ ∃ l ∈ c.rows, ∃ r ∈ d.rows, Row.key l = Row.key r ∧
    Alteration.effective? R l r = some a) :
    (∃ a ∈ alts, a.left = x) ↔ x ∈ c.rows ∧ AltersAt R c d (Row.key x) := by
  constructor
  · intro h'
    obtain ⟨a, ha, rfl⟩ := h'
    obtain ⟨l, hl, r, hr, hk, he⟩ := (h a).1 ha
    rw [(Alteration.effective?_sides he).1]
    exact ⟨hl, l, hl, r, hr, rfl, hk.symm, a, he⟩
  · intro h'
    obtain ⟨hx, l, hl, r, hr, hlk, hrk, a, he⟩ := h'
    obtain rfl := eq_of_key_eq hl hx hlk
    exact ⟨a, (h a).2 ⟨l, hl, r, hr, hrk.symm, he⟩, (Alteration.effective?_sides he).1⟩

theorem exists_right_iff (h : ∀ a, a ∈ alts ↔ ∃ l ∈ c.rows, ∃ r ∈ d.rows, Row.key l = Row.key r ∧
    Alteration.effective? R l r = some a) :
    (∃ a ∈ alts, a.right = x) ↔ x ∈ d.rows ∧ AltersAt R c d (Row.key x) := by
  constructor
  · intro h'
    obtain ⟨a, ha, rfl⟩ := h'
    obtain ⟨l, hl, r, hr, hk, he⟩ := (h a).1 ha
    rw [(Alteration.effective?_sides he).2]
    exact ⟨hr, l, hl, r, hr, hk, rfl, a, he⟩
  · intro h'
    obtain ⟨hx, l, hl, r, hr, hlk, hrk, a, he⟩ := h'
    obtain rfl := eq_of_key_eq hr hx hrk
    exact ⟨a, (h a).2 ⟨l, hl, r, hr, hlk, he⟩, (Alteration.effective?_sides he).2⟩

theorem eq_of_right (h : ∀ a, a ∈ alts ↔ ∃ l ∈ c.rows, ∃ r ∈ d.rows, Row.key l = Row.key r ∧
    Alteration.effective? R l r = some a) {b : Alteration α ν} (ha : a ∈ alts) (hb : b ∈ alts)
    (hright : a.right = b.right) : a = b := by
  obtain ⟨l, hl, r, -, hk, he⟩ := (h a).1 ha
  obtain ⟨l', hl', r', -, hk', he'⟩ := (h b).1 hb
  rw [(Alteration.effective?_sides he).2, (Alteration.effective?_sides he').2] at hright
  obtain rfl := hright
  obtain rfl := eq_of_key_eq hl hl' (hk.trans hk'.symm)
  exact Option.some.inj (he.symm.trans he')

end

end Collection

end SchemaEvolution
