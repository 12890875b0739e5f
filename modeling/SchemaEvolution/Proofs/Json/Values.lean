import SchemaEvolution.Proofs.Json.Lexing

/-!
# The value of a document

A document without numbers that does not nest too deep has a value (`Json.value?_eq`). The value
differs from the document in the order of members. **A record keeps its members**
(`Json.lookup_sortedMembers`, `Json.nodup_sortedMembers`), if no two of them have one name.
-/

namespace SchemaEvolution.Json

variable {ms done : List (String × Json)} {k : String} {x : Json}

/-! ## Documents with values -/

mutual

theorem hasValue_of_isText {d e : Nat} (hde : d ≤ e) :
    ∀ x : Json, x.isText d = true → x.hasValue e = true
  | .null, _ => rfl
  | .bool _, _ => rfl
  | .string _, _ => rfl
  | .array xs, h => by
    obtain ⟨hd, hxs⟩ := Bool.and_eq_true_iff.1 h
    have hd := of_decide_eq_true hd
    refine Bool.and_eq_true_iff.2 ⟨decide_eq_true (by omega), ?_⟩
    exact itemsHaveValue_of_areText (by omega) xs hxs
  | .object ms, h => by
    obtain ⟨hd, hms⟩ := Bool.and_eq_true_iff.1 h
    have hd := of_decide_eq_true hd
    refine Bool.and_eq_true_iff.2 ⟨decide_eq_true (by omega), ?_⟩
    exact membersHaveValue_of_areText (by omega) ms hms

theorem itemsHaveValue_of_areText {d e : Nat} (hde : d ≤ e) :
    ∀ xs : List Json, itemsAreText d xs = true → itemsHaveValue e xs = true
  | [], _ => rfl
  | x :: xs, h => by
    obtain ⟨hx, hxs⟩ := Bool.and_eq_true_iff.1 h
    exact Bool.and_eq_true_iff.2
      ⟨hasValue_of_isText hde x hx, itemsHaveValue_of_areText hde xs hxs⟩

theorem membersHaveValue_of_areText {d e : Nat} (hde : d ≤ e) :
    ∀ ms : List (String × Json), membersAreText d ms = true → membersHaveValue e ms = true
  | [], _ => rfl
  | (_, x) :: ms, h => by
    obtain ⟨hx, hms⟩ := Bool.and_eq_true_iff.1 h
    exact Bool.and_eq_true_iff.2
      ⟨hasValue_of_isText hde x hx, membersHaveValue_of_areText hde ms hms⟩

end

/-- **A document of texts and flags has a value.** -/
theorem value?_eq {depth : Nat} (hx : x.isText depth = true) (hd : depth ≤ maxDepth) :
    x.value? = some x.sorted := by
  rw [value?, if_pos (hasValue_of_isText hd x hx)]

/-! ## Members in order -/

/-- The members, each with its value. -/
def sortedValues (ms : List (String × Json)) : List (String × Json) :=
  ms.map fun m => (m.1, m.2.sorted)

theorem putMember_perm (h : k ∉ ms.map Prod.fst) : (putMember k x ms).Perm ((k, x) :: ms) := by
  induction ms with
  | nil => exact .refl _
  | cons m ms ih =>
    obtain ⟨l, y⟩ := m
    rw [List.map_cons, List.mem_cons, not_or] at h
    rw [putMember]
    split
    · exact .refl _
    · rw [if_neg h.1]
      exact ((ih h.2).cons _).trans (.swap ..)

theorem sortedMembers_perm (h : (ms.map Prod.fst).Nodup)
    (hd : ∀ m ∈ ms, m.1 ∉ done.map Prod.fst) :
    (sortedMembers done ms).Perm (sortedValues ms ++ done) := by
  induction ms generalizing done with
  | nil => exact .refl _
  | cons m ms ih =>
    obtain ⟨k, x⟩ := m
    obtain ⟨hk, h⟩ := List.nodup_cons.1 h
    have hput := putMember_perm (x := x.sorted) (hd (k, x) (List.mem_cons_self ..))
    -- The member is put among those that are done, none of which has its name.
    rw [sortedMembers]
    refine (ih h fun m hm hin => ?_).trans ?_
    · rcases List.mem_cons.1 (((hput.map Prod.fst).mem_iff).1 hin) with e | hin
      · exact hk (e ▸ List.mem_map_of_mem hm)
      · exact hd m (List.mem_cons_of_mem _ hm) hin
    · exact (hput.append_left _).trans List.perm_middle

theorem sortedMembers_nil_perm (h : (ms.map Prod.fst).Nodup) :
    (sortedMembers [] ms).Perm (sortedValues ms) := by
  have hperm : (sortedMembers [] ms).Perm (sortedValues ms ++ []) :=
    sortedMembers_perm h fun _ _ => List.not_mem_nil
  rwa [List.append_nil] at hperm

theorem nodup_sortedMembers (h : (ms.map Prod.fst).Nodup) :
    ((sortedMembers [] ms).map Prod.fst).Nodup := by
  rw [((sortedMembers_nil_perm h).map Prod.fst).nodup_iff, sortedValues, List.map_map]
  exact h

theorem lookup_eq_some_of_mem (h : (ms.map Prod.fst).Nodup) (hm : (k, x) ∈ ms) :
    ms.lookup k = some x := by
  induction ms with
  | nil => cases hm
  | cons m ms ih =>
    obtain ⟨l, y⟩ := m
    obtain ⟨hl, h⟩ := List.nodup_cons.1 h
    rcases List.mem_cons.1 hm with e | hm
    · cases e
      exact List.lookup_cons_self
    · have hne : k ≠ l := fun e => hl (List.mem_map.2 ⟨(k, x), hm, e⟩)
      rw [List.lookup_cons, beq_eq_false_iff_ne.2 hne]
      exact ih h hm

theorem mem_of_lookup_eq_some (h : ms.lookup k = some x) : (k, x) ∈ ms := by
  obtain ⟨l₁, l₂, rfl, -⟩ := List.lookup_eq_some_iff.1 h
  simp

/-- **A member of a record has its value under its name.** -/
theorem lookup_sortedMembers (h : (ms.map Prod.fst).Nodup) (hm : (k, x) ∈ ms) :
    (sortedMembers [] ms).lookup k = some x.sorted :=
  lookup_eq_some_of_mem (nodup_sortedMembers h)
    ((sortedMembers_nil_perm h).mem_iff.2 (List.mem_map.2 ⟨(k, x), hm, rfl⟩))

theorem sortedItems_eq (xs : List Json) : sortedItems xs = xs.map sorted := by
  induction xs with
  | nil => rfl
  | cons x xs ih => rw [sortedItems, ih, List.map_cons]

end SchemaEvolution.Json
