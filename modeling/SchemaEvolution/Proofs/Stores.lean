import Mathlib.Data.List.Nodup
import Mathlib.Data.List.Basic
import SchemaEvolution.Proofs.Rows
import SchemaEvolution.Schema.Store

/-!
# Stores and collections

A store has the position of every key beside its rows (`Store.Sound`). Each operation keeps the two
in step in a way of its own, and a collection with the same rows answers it in the same way
(`Store.Represents`).
-/

namespace SchemaEvolution

/-! ## Positions -/

namespace Positions

variable {p q : Positions} {k key : Key} {ks ks' : List Key} {i : Nat}

/-- The positions are those of the keys in a list. -/
def Of (p : Positions) (ks : List Key) : Prop :=
  ∀ k i, p.find? k = some i ↔ ks[i]? = some k

theorem of_nil : Of [] [] := fun k i => by simp [find?]

theorem find?_note (p : Positions) (key k : Key) (i : Nat) :
    (p.note key i).find? k = if k = key then some i else p.find? k := by
  rw [note, find?, List.lookup_cons]
  by_cases h : k = key
  · simp [h]
  · simp [beq_false_of_ne h, h, find?]

theorem isSome_find?_note :
    ((p.note key i).find? k).isSome = true ↔ k = key ∨ (p.find? k).isSome = true := by
  rw [find?_note]
  split <;> simp_all

theorem Of.isSome_iff (h : p.Of ks) : (p.find? k).isSome = true ↔ k ∈ ks := by
  rw [Option.isSome_iff_exists, List.mem_iff_getElem?]
  exact exists_congr fun i => h k i

/-- **A key has one position**, so keys with positions are distinct. -/
theorem Of.nodup (h : p.Of ks) : ks.Nodup := by
  rw [List.nodup_iff_getElem?_ne_getElem?]
  intro i j hij hj e
  rw [List.getElem?_eq_getElem hj] at e
  have hi := (h _ i).2 e
  rw [(h _ j).2 (List.getElem?_eq_getElem hj)] at hi
  exact absurd (Option.some.inj hi) (Nat.ne_of_gt hij)

/-- A key that is new goes behind the others. -/
theorem Of.note (h : p.Of ks) (hk : k ∉ ks) : (p.note k ks.length).Of (ks ++ [k]) := by
  intro x i
  rw [find?_note, List.getElem?_append]
  by_cases hi : i < ks.length
  · rw [if_pos hi, ← h x i]
    by_cases hx : x = k
    · subst hx
      have hnone : p.find? x = none := by
        rw [← Option.not_isSome_iff_eq_none, h.isSome_iff]
        exact hk
      rw [if_pos rfl, hnone]
      simp only [Option.some.injEq, reduceCtorEq, iff_false]
      omega
    · rw [if_neg hx]
  · rw [if_neg hi]
    by_cases hx : x = k
    · subst hx
      simp only [if_true, List.getElem?_singleton, Option.some.injEq, Option.ite_none_right_eq_some,
        and_true]
      omega
    · rw [if_neg hx, h x i, List.getElem?_eq_none (Nat.not_lt.1 hi), List.getElem?_singleton]
      simpa using fun _ e => hx e.symm

theorem Of.noteAll (h : p.Of ks) (hn : (ks ++ ks').Nodup) :
    (p.noteAll ks.length ks').Of (ks ++ ks') := by
  induction ks' generalizing p ks with
  | nil => simpa [Positions.noteAll] using h
  | cons k ks' ih =>
    have hk : k ∉ ks := fun hm => (List.nodup_append.1 hn).2.2 k hm k (List.mem_cons_self ..) rfl
    have hnext := ih (h.note hk) (by simpa using hn)
    simpa [Positions.noteAll] using hnext

/-- **Distinct keys have the positions that are noted for them.** -/
theorem of_noteAll (hn : ks.Nodup) : (noteAll [] 0 ks).Of ks :=
  of_nil.noteAll hn

/-- **Keys are noted until one of them stands twice.** -/
theorem noteNew_eq {seen : List Key} (h : ∀ k, (p.find? k).isSome = true ↔ k ∈ seen) :
    p.noteNew i ks = match repeatedAfter? seen ks with
      | some k => .error k
      | none => .ok (p.noteAll i ks) := by
  -- `seen` are the keys that have a position before the rest is noted.
  induction ks generalizing p i seen with
  | nil => rfl
  | cons k ks ih =>
    by_cases hk : k ∈ seen
    · simp [noteNew, repeatedAfter?, hk, (h k).2 hk]
    · have hfree : ¬(p.find? k).isSome = true := fun hs => hk ((h k).1 hs)
      have hseen : ∀ x, ((p.note k i).find? x).isSome = true ↔ x ∈ k :: seen := fun x => by
        rw [isSome_find?_note, h x, List.mem_cons]
      rw [noteNew, if_neg hfree, repeatedAfter?, if_neg hk, ih hseen]
      rfl

end Positions

/-! ## Updates -/

/-- An update fails with the first key that would stand twice. -/
theorem Collection.update_eq_error_iff {α : Type} [Row α] {c : Collection α} {change : α → α}
    {selects : α → Bool} {k : Key} :
    c.update change selects = .error k ↔
      repeated? ((c.rows.map fun x => if selects x then change x else x).map Row.key) =
        some k := by
  unfold update
  dsimp only
  split
  next key h => rw [h, Except.error.injEq, Option.some.injEq]
  next h => exact ⟨nofun, fun hk => nomatch h.symm.trans hk⟩

/-! ## Rows at positions -/

section

variable {β : Type} {f : β → β} {xs : List β}

theorem getElem?_foldl_modify {is : List Nat} (hn : is.Nodup) (j : Nat) :
    (is.foldl (fun xs i => xs.modify i f) xs)[j]? = if j ∈ is then xs[j]?.map f else xs[j]? := by
  induction is generalizing xs with
  | nil => simp
  | cons i is ih =>
    obtain ⟨hi, his⟩ := List.nodup_cons.1 hn
    rw [List.foldl_cons, ih his, List.getElem?_modify]
    by_cases hj : j = i
    · subst hj
      simp [hi]
    · simp [hj, Ne.symm hj]

end

namespace Store

section

variable {α : Type} {s : Store α} {change : α → α} {selects : α → Bool}

theorem mem_selected {i : Nat} :
    i ∈ s.selected selects ↔ ∃ x, s.rows[i]? = some x ∧ selects x = true := by
  simp only [selected, List.mem_map, List.mem_filter, Prod.exists, List.mem_zipIdx_iff_getElem?]
  constructor
  · rintro ⟨x, _, ⟨hx, hs⟩, rfl⟩
    exact ⟨x, hx, hs⟩
  · rintro ⟨x, hx, hs⟩
    exact ⟨x, i, ⟨hx, hs⟩, rfl⟩

theorem nodup_selected (s : Store α) (selects : α → Bool) : (s.selected selects).Nodup := by
  have hsub := (List.filter_sublist (p := fun p => selects p.1) (l := s.rows.zipIdx)).map Prod.snd
  rw [List.zipIdx_map_snd] at hsub
  exact List.Nodup.sublist hsub List.nodup_range'

/-- **The selected rows are changed in their places.** -/
theorem foldl_modify_selected :
    (s.selected selects).foldl (fun rows i => rows.modify i change) s.rows =
      s.rows.map fun x => if selects x then change x else x := by
  refine List.ext_getElem? fun j => ?_
  rw [getElem?_foldl_modify (s.nodup_selected selects), List.getElem?_map,
    if_congr mem_selected rfl rfl]
  cases hx : s.rows[j]? with
  | none => simp
  | some x => by_cases h : selects x = true <;> simp [h]

/-- **The new forms of the selected rows are listed in order.** -/
theorem filterMap_selected :
    (s.selected selects).filterMap
        (fun i => (s.rows.map fun x => if selects x then change x else x)[i]?) =
      (s.rows.filter selects).map change := by
  -- At a selected position stands the new form of the row that stood there.
  have hchanged : ∀ p ∈ s.rows.zipIdx.filter (fun p => selects p.1),
      (s.rows.map fun x => if selects x then change x else x)[p.2]? = some (change p.1) := by
    intro p hp
    obtain ⟨hp, hs⟩ := List.mem_filter.1 hp
    rw [List.getElem?_map, List.mem_zipIdx_iff_getElem?.1 hp, Option.map_some, if_pos hs]
  have hfirst : s.rows.filter selects =
      (s.rows.zipIdx.filter fun p => selects p.1).map (·.1) := by
    conv_lhs => rw [← List.zipIdx_map_fst 0 s.rows, List.filter_map]
    rfl
  rw [selected, List.filterMap_map, hfirst, List.map_map]
  exact (List.filterMap_congr hchanged).trans (congrFun List.filterMap_eq_map' _)

end

/-! ## Stores that are in step -/

section

variable {α : Type} [Row α] {s t : Store α} {c d : Collection α} {x row : α} {k : Key}
  {change : α → α} {selects : α → Bool}

/-- A commit checks the keys of all rows as they will be, whatever the rows were. -/
theorem commit_selected (h : s.selected selects ≠ []) :
    s.commit change (s.selected selects) =
      match repeated? ((s.rows.map fun x => if selects x then change x else x).map Row.key) with
      | some k => (.error (.update (Row.kind α) k), s)
      | none => (.ok ((s.rows.filter selects).map change),
          ⟨s.rows.map fun x => if selects x then change x else x, Positions.noteAll [] 0
            ((s.rows.map fun x => if selects x then change x else x).map Row.key)⟩) := by
  have hnote (ks : List Key) : Positions.noteNew [] 0 ks = match repeated? ks with
      | some k => .error k
      | none => .ok (Positions.noteAll [] 0 ks) :=
    Positions.noteNew_eq fun k => by simp [Positions.find?]
  simp only [Store.commit, List.isEmpty_iff, h, if_false, foldl_modify_selected, hnote,
    filterMap_selected]
  cases repeated? ((s.rows.map fun x => if selects x then change x else x).map Row.key) <;> rfl

/-- The store has the positions of the keys of its rows, and no others. -/
def Sound (s : Store α) : Prop :=
  s.positions.Of (s.rows.map Row.key)

/-- The store is in step, and has the rows of a collection. -/
structure Represents (s : Store α) (c : Collection α) : Prop where
  sound : s.Sound
  rows : s.rows = c.rows

theorem represents_empty : (empty : Store α).Represents .empty :=
  ⟨Positions.of_nil, rfl⟩

namespace Represents

variable (h : s.Represents c)
include h

/-- **A row is found at the position of its key.** -/
theorem get?_eq (k : Key) : s.get? k = c.get? k := by
  refine Option.ext fun x => ?_
  rw [Collection.get?_eq_some_iff, get?, Option.bind_eq_some_iff, ← h.rows]
  constructor
  · rintro ⟨i, hi, hx⟩
    have hk := (h.sound k i).1 hi
    rw [List.getElem?_map, hx] at hk
    exact ⟨List.mem_of_getElem? hx, Option.some.inj hk⟩
  · rintro ⟨hx, rfl⟩
    obtain ⟨i, hi⟩ := List.mem_iff_getElem?.1 hx
    refine ⟨i, (h.sound _ i).2 ?_, hi⟩
    rw [List.getElem?_map, hi]
    rfl

/-- **A key is taken if it has a position.** -/
theorem hasKey_eq (k : Key) : s.hasKey k = c.hasKey k := by
  rw [Bool.eq_iff_iff, Collection.hasKey_iff, hasKey, ← h.rows]
  exact h.sound.isSome_iff

theorem insert_of_taken (hx : c.get? (Row.key row) = some x) :
    s.insert row = (.taken (some x), s) := by
  rw [← h.get?_eq, get?, Option.bind_eq_some_iff] at hx
  obtain ⟨i, hi, hx⟩ := hx
  simp only [insert, hi, hx]

theorem insert_of_free (hk : c.hasKey (Row.key row) = false) :
    s.insert row = (.stored row,
      ⟨s.rows ++ [row], s.positions.note (Row.key row) s.rows.length⟩) := by
  rw [← h.hasKey_eq, hasKey, Option.isSome_eq_false_iff, Option.isNone_iff_eq_none] at hk
  simp only [insert, hk]

/-- **An inserted row adds a position**, and moves none. -/
theorem insert (row : α) : (s.insert row).2.Represents (c.insert row) := by
  cases hk : c.hasKey (Row.key row) with
  | true =>
    obtain ⟨x, hx⟩ := Option.isSome_iff_exists.1 hk
    rw [h.insert_of_taken hx, Collection.insert, dif_pos hk]
    exact h
  | false =>
    rw [h.insert_of_free hk]
    refine ⟨?_, by rw [Collection.rows_insert hk, h.rows]⟩
    have hnew : Row.key row ∉ s.rows.map Row.key := by
      rw [h.rows, ← Collection.hasKey_iff, hk]
      exact Bool.false_ne_true
    have hpos := Positions.Of.note h.sound hnew
    rw [List.length_map] at hpos
    simpa [Sound] using hpos

/-- **An update makes the positions anew** while it looks for keys that stand twice. -/
theorem commit (change : α → α) (selects : α → Bool) :
    (∃ k, c.update change selects = .error k ∧
      s.commit change (s.selected selects) = (.error (.update (Row.kind α) k), s)) ∨
    ∃ d rows t, c.update change selects = .ok (d, rows) ∧
      s.commit change (s.selected selects) = (.ok rows, t) ∧ t.Represents d := by
  by_cases hempty : s.selected selects = []
  · -- Nothing is looked at. The keys are distinct as they are.
    have hnone : ∀ x ∈ s.rows, ¬selects x = true := by
      intro x hx hs
      obtain ⟨i, hi⟩ := List.mem_iff_getElem?.1 hx
      have hmem := mem_selected.2 ⟨x, hi, hs⟩
      rw [hempty] at hmem
      cases hmem
    refine .inr ⟨c, [], s, Collection.update_eq_ok_iff.2 ⟨?_, ?_⟩, by rw [hempty]; rfl, h⟩
    · rw [← h.rows, List.map_congr_left fun x hx => if_neg (hnone x hx), List.map_id']
    · rw [← h.rows, List.filter_eq_nil_iff.2 hnone, List.map_nil]
  · rw [commit_selected hempty]
    cases hrep : repeated?
        ((s.rows.map fun x => if selects x then change x else x).map Row.key) with
    | some k => exact .inl ⟨k, Collection.update_eq_error_iff.2 (h.rows ▸ hrep), rfl⟩
    | none =>
      have hn := repeated?_eq_none_iff.1 hrep
      refine .inr ⟨⟨_, hn⟩, _, ⟨_, _⟩, Collection.update_eq_ok_iff.2 ⟨?_, ?_⟩, rfl,
        Positions.of_noteAll hn, rfl⟩
      · simp only [h.rows]
      · rw [h.rows]

/-- **A deletion makes the positions anew** from the rows that are left. -/
theorem delete {κ φ : Type} {ν : φ → Type} [Attributed α φ ν] [Fielded α κ]
    (filter : Filter κ ν) :
    (s.delete filter).1 = (c.delete filter.selects).2 ∧
      (s.delete filter).2.Represents (c.delete filter.selects).1 := by
  have hkept : (s.delete filter).2.rows = (c.delete filter.selects).1.rows := by
    simp [Store.delete, Collection.delete, List.partition_eq_filter_filter, h.rows,
      Function.comp_def]
  refine ⟨?_, ?_, hkept⟩
  · simp [Store.delete, Collection.delete, List.partition_eq_filter_filter, h.rows]
  · have hn := (c.delete filter.selects).1.keys_nodup
    rw [← hkept] at hn
    exact Positions.of_noteAll hn

end Represents

end

end Store

end SchemaEvolution
