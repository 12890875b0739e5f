import Mathlib.Data.List.NodupEquivFin
import SchemaEvolution.Proofs.StoreRuns

/-!
# Updates at once

An update changes all selected rows at once. Keys that are the same only while one row is changed
after the other do not count: names can be exchanged and passed on in a circle.

**Assigned rows** (`Assignment.eq_apply_iff`): the fields of an assigned row have the values that
are made from the old row, and no other row has them.

**All or nothing** (`Store.update_at_once`): whatever has been done to a store before, an update
of it fails if two rows would share a key and changes nothing then. Otherwise it changes the
selected rows where they stand.
-/

namespace SchemaEvolution

/-! ## Assigned rows -/

/-- **An assigned row is the one whose fields have the new values.** -/
theorem Assignment.eq_apply_iff {α κ φ : Type} {ν : φ → Type} [Row α] [Attributed α φ ν]
    [Fielded α κ] {set : Assignment κ ν} {x y : α} :
    y = set.apply x ↔ ∀ f : Field κ φ, f.get y = set.valueOf f x := by
  constructor
  · rintro rfl f
    exact set.get_apply f x
  · intro h
    exact Fielded.ext y (set.apply x) fun f => (h f).trans (set.get_apply f x).symm

/-! ## Keys that would be shared -/

/-- Two rows have one key in their new forms. -/
def SharedKey {α : Type} [Row α] (new : α → α) (rows : List α) (k : Key) : Prop :=
  ∃ x ∈ rows, ∃ y ∈ rows, x ≠ y ∧ Row.key (new x) = k ∧ Row.key (new y) = k

section

variable {κ : Type} [DecidableEq κ] {seen ks : List κ} {k : κ}

theorem duplicate_of_repeatedAfter? (h : repeatedAfter? seen ks = some k) :
    k ∈ seen ∧ k ∈ ks ∨ ks.Duplicate k := by
  induction ks generalizing seen with
  | nil => cases h
  | cons x ks ih =>
    rw [repeatedAfter?] at h
    split at h
    next hx =>
      cases h
      exact .inl ⟨hx, List.mem_cons_self ..⟩
    next =>
      rcases ih h with ⟨hk, hks⟩ | hdup
      · rcases List.mem_cons.1 hk with rfl | hk
        · exact .inr (List.Mem.duplicate_cons_self hks)
        · exact .inl ⟨hk, List.mem_cons_of_mem _ hks⟩
      · exact .inr (hdup.duplicate_cons x)

theorem duplicate_of_repeated? (h : repeated? ks = some k) : ks.Duplicate k := by
  rcases duplicate_of_repeatedAfter? h with ⟨hk, -⟩ | hdup
  · cases hk
  · exact hdup

end

section

variable {α : Type} [Row α] {new : α → α} {rows : List α} {k : Key}

theorem sharedKey_of_repeated? (hn : rows.Nodup)
    (h : repeated? ((rows.map new).map Row.key) = some k) : SharedKey new rows k := by
  have hdup := duplicate_of_repeated? h
  rw [List.map_map] at hdup
  obtain ⟨i, j, hij, hi, hj⟩ := List.duplicate_iff_exists_distinct_get.1 hdup
  simp only [List.get_eq_getElem, List.getElem_map, Function.comp_apply] at hi hj
  refine ⟨_, List.getElem_mem _, _, List.getElem_mem _, fun e => ?_, hi.symm, hj.symm⟩
  exact absurd ((hn.getElem_inj_iff).1 e) (Nat.ne_of_lt hij)

theorem not_sharedKey_of_repeated? (h : repeated? ((rows.map new).map Row.key) = none) :
    ¬SharedKey new rows k := by
  rintro ⟨x, hx, y, hy, hne, hkx, hky⟩
  have hn := repeated?_eq_none_iff.1 h
  rw [List.map_map] at hn
  exact hne (List.inj_on_of_nodup_map hn hx hy (hkx.trans hky.symm))

end

/-! ## Updates of a collection -/

namespace Collection

variable {α : Type} [Row α] {c : Collection α} {change : α → α} {selects : α → Bool} {k : Key}

/-- **An update fails with a key that two rows would share.** -/
theorem sharedKey_of_update_error (h : c.update change selects = .error k) :
    SharedKey (fun x => if selects x then change x else x) c.rows k :=
  sharedKey_of_repeated? c.nodup_rows (update_eq_error_iff.1 h)

/-- **An update goes through** only if no two rows would share a key. -/
theorem not_sharedKey_of_update_ok {d : Collection α} {rows : List α}
    (h : c.update change selects = .ok (d, rows)) :
    ¬SharedKey (fun x => if selects x then change x else x) c.rows k := by
  have hn := d.keys_nodup
  rw [(update_eq_ok_iff.1 h).1] at hn
  exact not_sharedKey_of_repeated? (repeated?_eq_none_iff.2 hn)

end Collection

/-! ## Updates of a store -/

namespace Store

/-- **A store answers an update as its collection does.** -/
theorem Represents.commit_answer {α : Type} [Row α] {s : Store α} {c : Collection α}
    (h : s.Represents c) (change : α → α) (selects : α → Bool) :
    (s.commit change (s.selected selects)).1 =
      ((c.update change selects).map Prod.snd).mapError (.update (Row.kind α)) := by
  rcases h.commit change selects with ⟨k, hc, hs⟩ | ⟨d, rows, t, hc, hs, -⟩
  · rw [hc, hs]
    rfl
  · rw [hc, hs]
    rfl

/-- **Updates happen at once or not at all.** The assigned form of a row is made from the old row.
An update fails exactly if two rows would share a key with all selected rows assigned, and then
nothing is changed. Otherwise the selected rows are assigned where they stand, and listed in
order. A collection of the same rows answers in the same way. -/
theorem update_at_once {α κ φ : Type} {ν : φ → Type} [Row α] [Attributed α φ ν] [Fielded α κ]
    (steps : List (Step α κ ν)) (set : Assignment κ ν) (selects : α → Bool) :
    let s := after steps
    let new := fun x => if selects x then set.apply x else x
    (∀ x y : α, y = set.apply x ↔ ∀ f : Field κ φ, f.get y = set.valueOf f x) ∧
    ((∃ e, (s.updateIf set selects).1 = .error e) ↔ ∃ k, SharedKey new s.rows k) ∧
    (∀ e, (s.updateIf set selects).1 = .error e →
      (s.updateIf set selects).2 = s ∧
      ∃ k, e = .update (Row.kind α) k ∧ SharedKey new s.rows k) ∧
    (∀ rows, (s.updateIf set selects).1 = .ok rows →
      rows = (s.rows.filter selects).map set.apply ∧
      (s.updateIf set selects).2.rows = s.rows.map new) ∧
    (s.updateIf set selects).1 =
      (((Collection.after steps).update set.apply selects).map Prod.snd).mapError
        (.update (Row.kind α)) ∧
    ∀ filter, s.update set filter = s.updateIf set filter.selects := by
  intro s new
  have h : s.Represents (Collection.after steps) := after_represents steps
  have hanswer := h.commit_answer set.apply selects
  refine ⟨fun _ _ => Assignment.eq_apply_iff, ?_⟩
  rw [updateIf, h.rows]
  rcases h.commit set.apply selects with ⟨k, hc, hs⟩ | ⟨d, rows, t, hc, hs, ht⟩
  · rw [hs]
    have hshared := Collection.sharedKey_of_update_error hc
    refine ⟨⟨fun _ => ⟨k, hshared⟩, fun _ => ⟨_, rfl⟩⟩, ?_, nofun, hs ▸ hanswer, fun _ => rfl⟩
    rintro _ ⟨⟩
    exact ⟨rfl, k, rfl, hshared⟩
  · rw [hs]
    obtain ⟨hd, hrows⟩ := Collection.update_eq_ok_iff.1 hc
    refine ⟨⟨nofun, ?_⟩, nofun, ?_, hs ▸ hanswer, fun _ => rfl⟩
    · rintro ⟨k, hshared⟩
      exact absurd hshared (Collection.not_sharedKey_of_update_ok hc)
    · rintro _ ⟨⟩
      exact ⟨hrows, ht.rows.trans hd⟩

/-- Two tables exchange their names, though neither name is free. -/
example : (after (α := Table) (κ := SingleName) [.insert ⟨"a"⟩, .insert ⟨"b"⟩, .updateIf
    (fun | .key .name => some (.map fun n => if n = "a" then "b" else "a")) fun _ => true]).rows =
    [⟨"b"⟩, ⟨"a"⟩] := by decide

end Store

end SchemaEvolution
