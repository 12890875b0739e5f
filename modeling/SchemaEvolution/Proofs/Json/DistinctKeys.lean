import Mathlib.Data.String.Basic
import SchemaEvolution.Json.Basic

/-!
# Documents in which names stand once

In a document as it is written an object may have a name twice. In its value it has not: **the
objects of a value have distinct keys** (`Json.hasDistinctKeys_of_value?`). That is so because
members are put in their places one after the other, where names ascend (`Json.Ascending`).
-/

namespace SchemaEvolution.Json

/-! ## Distinct keys -/

mutual

/-- Whether no object of the document has a key twice. -/
def hasDistinctKeys : Json → Bool
  | .array items => itemsHaveDistinctKeys items
  | .object members => decide (members.map Prod.fst).Nodup && membersHaveDistinctKeys members
  | _ => true

/-- Whether all items of an array have distinct keys. -/
def itemsHaveDistinctKeys : List Json → Bool
  | [] => true
  | x :: xs => hasDistinctKeys x && itemsHaveDistinctKeys xs

/-- Whether the values of all members of an object have distinct keys. -/
def membersHaveDistinctKeys : List (String × Json) → Bool
  | [] => true
  | (_, x) :: ms => hasDistinctKeys x && membersHaveDistinctKeys ms

end

variable {x y : Json} {xs : List Json} {ms done : List (String × Json)} {k : String}

theorem itemsHaveDistinctKeys_iff :
    itemsHaveDistinctKeys xs = true ↔ ∀ x ∈ xs, x.hasDistinctKeys = true := by
  induction xs with
  | nil => simp [itemsHaveDistinctKeys]
  | cons x xs ih => simp [itemsHaveDistinctKeys, ih]

theorem membersHaveDistinctKeys_iff :
    membersHaveDistinctKeys ms = true ↔ ∀ m ∈ ms, m.2.hasDistinctKeys = true := by
  induction ms with
  | nil => simp [membersHaveDistinctKeys]
  | cons m ms ih => simp [membersHaveDistinctKeys, ih]

theorem hasDistinctKeys_object :
    (Json.object ms).hasDistinctKeys = true ↔
      (ms.map Prod.fst).Nodup ∧ ∀ m ∈ ms, m.2.hasDistinctKeys = true := by
  rw [hasDistinctKeys, Bool.and_eq_true, decide_eq_true_eq, membersHaveDistinctKeys_iff]

theorem hasDistinctKeys_array :
    (Json.array xs).hasDistinctKeys = true ↔ ∀ x ∈ xs, x.hasDistinctKeys = true := by
  rw [hasDistinctKeys, itemsHaveDistinctKeys_iff]

/-! ## Ascending names -/

/-- The names of members ascend. -/
def Ascending (ms : List (String × Json)) : Prop :=
  (ms.map Prod.fst).Pairwise (· < ·)

theorem Ascending.nodup (h : Ascending ms) : (ms.map Prod.fst).Nodup :=
  h.imp ne_of_lt

theorem mem_keys_putMember {l : String} (h : l ∈ (putMember k x ms).map Prod.fst) :
    l = k ∨ l ∈ ms.map Prod.fst := by
  induction ms with
  | nil => simpa [putMember] using h
  | cons m ms ih =>
    rw [putMember] at h
    split at h
    · simpa using h
    · split at h
      · next e => exact .inr (by simpa [e] using h)
      · rcases List.mem_cons.1 h with rfl | h
        · exact .inr (List.mem_cons_self ..)
        · exact (ih h).imp_right (List.mem_cons_of_mem _)

theorem Ascending.putMember (h : Ascending ms) : Ascending (putMember k x ms) := by
  induction ms with
  | nil => exact List.pairwise_singleton ..
  | cons m ms ih =>
    obtain ⟨hm, hms⟩ := List.pairwise_cons.1 h
    rw [Json.putMember]
    split
    · next hk =>
      refine List.pairwise_cons.2 ⟨fun l hl => ?_, h⟩
      rcases List.mem_cons.1 hl with rfl | hl
      · exact hk
      · exact hk.trans (hm l hl)
    · next hk =>
      split
      · next e => exact List.pairwise_cons.2 ⟨e ▸ hm, hms⟩
      · next hne =>
        refine List.pairwise_cons.2 ⟨fun l hl => ?_, ih hms⟩
        rcases mem_keys_putMember hl with rfl | hl
        · exact lt_of_le_of_ne (not_lt.1 hk) (Ne.symm hne)
        · exact hm l hl

theorem mem_putMember {m : String × Json} (h : m ∈ putMember k x ms) : m = (k, x) ∨ m ∈ ms := by
  induction ms with
  | nil => simpa [putMember] using h
  | cons l ms ih =>
    rw [putMember] at h
    split at h
    · simpa using h
    · split at h
      · exact (List.mem_cons.1 h).imp_right (List.mem_cons_of_mem _)
      · rcases List.mem_cons.1 h with rfl | h
        · exact .inr (List.mem_cons_self ..)
        · exact (ih h).imp_right (List.mem_cons_of_mem _)

/-! ## Values -/

theorem hasDistinctKeys_putMember (hx : x.hasDistinctKeys = true)
    (h : ∀ m ∈ ms, m.2.hasDistinctKeys = true) :
    ∀ m ∈ putMember k x ms, m.2.hasDistinctKeys = true := by
  intro m hm
  rcases mem_putMember hm with rfl | hm
  · exact hx
  · exact h m hm

mutual

theorem hasDistinctKeys_sorted : ∀ x : Json, x.sorted.hasDistinctKeys = true
  | .null | .bool _ | .number _ | .string _ | .unreadable => rfl
  | .array xs => hasDistinctKeys_array.2 (hasDistinctKeys_sortedItems xs)
  | .object ms =>
    have h : Ascending (sortedMembers [] ms) ∧ _ :=
      hasDistinctKeys_sortedMembers ms List.Pairwise.nil (by simp)
    hasDistinctKeys_object.2 ⟨h.1.nodup, h.2⟩

theorem hasDistinctKeys_sortedItems : ∀ xs : List Json,
    ∀ y ∈ sortedItems xs, y.hasDistinctKeys = true
  | [] => by simp [sortedItems]
  | x :: xs => by
    rw [sortedItems, List.forall_mem_cons]
    exact ⟨hasDistinctKeys_sorted x, hasDistinctKeys_sortedItems xs⟩

/-- What is done has ascending names and distinct keys, one member after the other. -/
theorem hasDistinctKeys_sortedMembers : ∀ ms {done : List (String × Json)}, Ascending done →
    (∀ m ∈ done, m.2.hasDistinctKeys = true) →
    Ascending (sortedMembers done ms) ∧ ∀ m ∈ sortedMembers done ms, m.2.hasDistinctKeys = true
  | [], _, ha, hd => ⟨ha, hd⟩
  | (_, x) :: ms, _, ha, hd =>
    hasDistinctKeys_sortedMembers ms ha.putMember
      (hasDistinctKeys_putMember (hasDistinctKeys_sorted x) hd)

end

/-- **The objects of a value have distinct keys.** -/
theorem hasDistinctKeys_of_value? (h : x.value? = some y) : y.hasDistinctKeys = true := by
  rw [value?] at h
  split at h
  · exact Option.some.inj h ▸ hasDistinctKeys_sorted x
  · cases h

end SchemaEvolution.Json
