import SchemaEvolution.Proofs.Reloading
import SchemaEvolution.Proofs.SameRows
import SchemaEvolution.Schema.Query

/-!
# Differences as patches

A difference can be carried out: its dropped rows are deleted, the later values of the deltas are
written into the altered rows, and its created rows are inserted (`Difference.patch?`).

**A row that is altered becomes the row of the other side** (`Collection.rewrite_eq`). The two
share their key, every attribute in which they differ has a delta, and a row is no more than its
key and its attributes.

**So a difference is a patch** (`Collection.difference_is_patch`): carried out on the one
collection, it gives the other one. From the other side the same difference is seen in a mirror.
-/

namespace SchemaEvolution

variable {α κ φ : Type} {ν : φ → Type}

/-! ## Rows from their fields -/

section

variable [Row α] [Attributed α φ ν]

theorem Fielded.eq_of_attributes [Fielded α κ] {x y : α} (hk : Row.key x = Row.key y)
    (h : ∀ f, Attributed.get (α := α) f x = Attributed.get f y) : x = y := by
  refine Fielded.ext x y fun f => ?_
  cases f with
  | key k =>
    rw [← Fielded.key_eq x, ← Fielded.key_eq y] at hk
    exact congrFun ((Keyed.names α).key_inj _ _ hk) k
  | attr f => exact h f

theorem Assignment.key_apply [Fielded α κ] {set : Assignment κ ν}
    (h : ∀ k, set (.key k) = none) (row : α) : Row.key (set.apply row) = Row.key row := by
  rw [← Fielded.key_eq, ← Fielded.key_eq row]
  refine congrArg _ (funext fun k => ?_)
  have hget := get_apply set (.key k) row
  rw [valueOf, h k] at hget
  exact hget

end

theorem sublist_map_filterMap {β γ : Type} {g : β → Option γ} {h : γ → β}
    (hg : ∀ x y, g x = some y → h y = x) (xs : List β) : ((xs.filterMap g).map h).Sublist xs := by
  induction xs with
  | nil => exact .slnil
  | cons x xs ih =>
    rw [List.filterMap_cons]
    cases hx : g x with
    | none => exact ih.cons x
    | some y =>
      simp only [List.map_cons, hg x y hx]
      exact ih.cons_cons x

/-! ## Alterations written and mirrored -/

/-- The change back. -/
def Delta.reversed {β : Type} (d : Delta β) : Delta β := ⟨d.after, d.before⟩

theorem Delta.map_reversed_between? {β : Type} [DecidableEq β] (x y : β) :
    (between? x y).map reversed = between? y x := by
  unfold between?
  by_cases h : x = y
  · rw [if_pos h, if_pos h.symm]
    rfl
  · rw [if_neg h, if_neg fun e => h e.symm]
    rfl

namespace Alteration

/-- The alteration with its sides exchanged. -/
def reversed (a : Alteration α ν) : Alteration α ν :=
  ⟨a.right, a.left, fun f => (a.change f).map Delta.reversed⟩

theorem reversed_reversed (a : Alteration α ν) : a.reversed.reversed = a := by
  simp [reversed, Option.map_map, Function.comp_def, Delta.reversed]

/-- The later values of all deltas. -/
def assignment (κ : Type) (a : Alteration α ν) : Assignment κ ν
  | .key _ => none
  | .attr f => (a.change f).map fun d => .to d.after

section

variable [Attributed α φ ν] {a : Alteration α ν} {l r : α}

theorem reversed_between (l r : α) : (between l r : Alteration α ν).reversed = between r l := by
  rw [reversed, between, between, Alteration.mk.injEq]
  exact ⟨rfl, rfl, funext fun f =>
    letI := Attributed.decEq (α := α) f
    Delta.map_reversed_between? _ _⟩

theorem nonempty?_reversed (a : Alteration α ν) :
    a.reversed.nonempty? = a.nonempty?.map reversed := by
  have h : a.reversed.isEmpty = a.isEmpty := by
    rw [Bool.eq_iff_iff, isEmpty_eq_true_iff, isEmpty_eq_true_iff]
    exact forall_congr' fun f => Option.map_eq_none_iff
  rw [nonempty?, nonempty?, h]
  split <;> rfl

/-- **The deltas between two rows are exactly the attributes in which they differ.** -/
theorem change_between_eq_some_iff {f : φ} {d : Delta (ν f)} :
    (between l r).change f = some d ↔ Attributed.get (α := α) f l ≠ Attributed.get f r ∧
      d = ⟨Attributed.get (α := α) f l, Attributed.get f r⟩ := by
  unfold between Delta.between?
  dsimp only
  split
  next h => simp [h]
  next h => simp [h, eq_comm]

theorem change_between_eq_none_iff {f : φ} :
    (between l r).change f = none ↔ Attributed.get (α := α) f l = Attributed.get f r := by
  simp [between, Delta.between?]

end

variable [Row α] [Attributed α φ ν] [Fielded α κ] {l r : α}

/-- The left row with the later values of all deltas. -/
def patched (a : Alteration α ν) : α :=
  (a.assignment κ).apply a.left

/-- **The left row becomes the right row** under the same key. -/
theorem patched_between (hk : Row.key l = Row.key r) : (between l r).patched = r := by
  refine Fielded.eq_of_attributes ?_ fun f => ?_
  · exact (Assignment.key_apply (fun _ => rfl) l).trans hk
  · refine (Assignment.get_apply (assignment κ (between l r)) (.attr f) l).trans ?_
    show ((((between l r).change f).map fun d => Assign.to d.after).elim (Attributed.get f l)
      fun a => a.apply (Attributed.get f l)) = _
    cases h : (between l r).change f with
    | none => exact change_between_eq_none_iff.1 h
    | some d =>
      rw [(change_between_eq_some_iff.1 h).2]
      rfl

end Alteration

/-! ## Carrying out a difference -/

namespace Difference

variable [Row α] [Attributed α φ ν] [Fielded α κ] [DecidableEq α]

/-- The alteration of a row. -/
def alterationOf? (d : Difference α ν) (row : α) : Option (Alteration α ν) :=
  d.altered.find? fun a => a.left = row

/-- A row after its alteration, if it has one. -/
def rewrite (d : Difference α ν) (row : α) : α :=
  (d.alterationOf? row).elim row Alteration.patched

/-- The collection without the dropped rows, with the altered ones rewritten, and with the created
ones inserted. -/
def patch? (d : Difference α ν) (c : Collection α) : Except Key (Collection α) := do
  let kept := (c.delete fun row => row ∈ d.dropped).1
  let (rewritten, _) ← kept.update d.rewrite fun row => (d.alterationOf? row).isSome
  return d.created.foldl .insert rewritten

theorem patch?_of_isEmpty {d : Difference α ν} (h : d.isEmpty = true) (c : Collection α) :
    d.patch? c = .ok c := by
  obtain ⟨created, dropped, altered⟩ := d
  simp only [isEmpty, Bool.and_eq_true, List.isEmpty_iff] at h
  obtain ⟨⟨rfl, rfl⟩, rfl⟩ := h
  have hkept : (c.delete fun row => decide (row ∈ ([] : List α))).1 = c :=
    Collection.ext_rows (by simp [Collection.delete])
  have hupdate : c.update (rewrite (⟨[], [], []⟩ : Difference α ν)) (fun _ => false) =
      .ok (c, []) :=
    Collection.update_eq_ok_iff.2 ⟨by simp, by simp⟩
  simp only [patch?, hkept]
  show (c.update _ (fun _ => false) >>= _) = _
  rw [hupdate]
  rfl

end Difference

namespace Collection

variable [Row α] [Attributed α φ ν] {source target : Collection α} {l r : α}

theorem exists_of_mem_altered {a : Alteration α ν} (h : a ∈ (source.difference target).altered) :
    a.left ∈ source.rows ∧ a.right ∈ target.rows ∧ Row.key a.left = Row.key a.right ∧
      a = .between a.left a.right := by
  obtain ⟨l, hl, r, hr, hk, ha⟩ := mem_altered_iff.1 h
  rw [Alteration.eq_of_nonempty? ha]
  exact ⟨hl, hr, hk, rfl⟩

theorem map_right_altered_sublist (source target : Collection α) :
    ((source.difference target).altered.map (·.right)).Sublist target.rows := by
  refine sublist_map_filterMap (fun r a h => ?_) target.rows
  obtain ⟨l, -, ha⟩ := Option.bind_eq_some_iff.1 h
  rw [Alteration.eq_of_nonempty? ha]
  rfl

theorem nodup_right_altered (source target : Collection α) :
    ((source.difference target).altered.map (·.right)).Nodup :=
  target.nodup_rows.sublist (map_right_altered_sublist source target)

/-- **The difference from the other side is its mirror image.** -/
theorem altered_perm_reversed (source target : Collection α) :
    (target.difference source).altered.Perm
      ((source.difference target).altered.map Alteration.reversed) := by
  have hinj : Function.Injective (Alteration.reversed : Alteration α ν → _) :=
    Function.LeftInverse.injective Alteration.reversed_reversed
  rw [List.perm_ext_iff_of_nodup (nodup_right_altered target source).of_map
    ((nodup_right_altered source target).of_map.map hinj)]
  intro b
  rw [mem_altered_iff, List.mem_map]
  constructor
  · rintro ⟨r, hr, l, hl, hk, hb⟩
    rw [← Alteration.reversed_between, Alteration.nonempty?_reversed, Option.map_eq_some_iff] at hb
    obtain ⟨a, ha, rfl⟩ := hb
    exact ⟨a, mem_altered_iff.2 ⟨l, hl, r, hr, hk.symm, ha⟩, rfl⟩
  · rintro ⟨a, ha, rfl⟩
    obtain ⟨l, hl, r, hr, hk, ha⟩ := mem_altered_iff.1 ha
    refine ⟨r, hr, l, hl, hk.symm, ?_⟩
    rw [← Alteration.reversed_between, Alteration.nonempty?_reversed, ha]
    rfl

section

variable [DecidableEq α] [Fielded α κ]

/-- The rows of two sides under one key differ exactly if the difference has their alteration. -/
theorem alterationOf?_eq (hl : l ∈ source.rows) (hr : r ∈ target.rows)
    (hk : Row.key l = Row.key r) :
    (source.difference target).alterationOf? l = (Alteration.between l r).nonempty? := by
  unfold Difference.alterationOf?
  cases hf : (source.difference target).altered.find? fun a => a.left = l with
  | some a =>
    have ha := List.mem_of_find?_eq_some hf
    obtain rfl : a.left = l := by simpa using List.find?_some hf
    obtain ⟨l', hl', r', hr', hk', ha⟩ := mem_altered_iff.1 ha
    have hleft : a.left = l' := by rw [Alteration.eq_of_nonempty? ha]; rfl
    obtain rfl : r' = r := eq_of_key_eq hr' hr (by rw [← hk', ← hleft, hk])
    rw [hleft, ha]
  | none =>
    cases ha : (Alteration.between l r).nonempty? with
    | none => rfl
    | some a =>
      have hmem := mem_altered_iff.2 ⟨l, hl, r, hr, hk, ha⟩
      have hleft : a.left = l := by rw [Alteration.eq_of_nonempty? ha]; rfl
      exact absurd hleft (by simpa using List.find?_eq_none.1 hf a hmem)

/-- **A matched row is rewritten to the row of the other side.** -/
theorem rewrite_eq (hl : l ∈ source.rows) (hr : r ∈ target.rows) (hk : Row.key l = Row.key r) :
    (source.difference target).rewrite l = r := by
  rw [Difference.rewrite, alterationOf?_eq hl hr hk]
  cases ha : (Alteration.between l r).nonempty? with
  | none =>
    have hsame := Alteration.nonempty?_eq_none_iff.1 ha
    exact Fielded.eq_of_attributes hk fun f => Alteration.change_between_eq_none_iff.1 (hsame f)
  | some a =>
    rw [Alteration.eq_of_nonempty? ha]
    exact Alteration.patched_between hk

theorem mem_kept_iff : l ∈ (source.delete fun x => x ∈ (source.difference target).dropped).1.rows ↔
    l ∈ source.rows ∧ target.hasKey (Row.key l) = true := by
  simp only [delete, List.mem_filter, Bool.not_eq_true', decide_eq_false_iff_not, mem_dropped_iff]
  refine and_congr_right fun hl => ?_
  simp [hl]

/-- **Carrying out the difference gives the rows of the other side.** -/
theorem exists_patch? (source target : Collection α) :
    ∃ c, (source.difference target).patch? source = .ok c ∧ c.rows.Perm target.rows := by
  let d := source.difference target
  let kept := (source.delete fun x => x ∈ d.dropped).1
  have hrewrite : ∀ l ∈ kept.rows, d.rewrite l ∈ target.rows ∧
      Row.key (d.rewrite l) = Row.key l := by
    intro l hl
    obtain ⟨hs, ht⟩ := mem_kept_iff.1 hl
    obtain ⟨r, hr, hk⟩ := hasKey_iff_exists.1 ht
    rw [rewrite_eq hs hr hk.symm]
    exact ⟨hr, hk⟩
  -- No alteration touches a key, so the update cannot fail.
  have hkeys : (kept.rows.map d.rewrite).map Row.key = kept.rows.map Row.key := by
    rw [List.map_map]
    exact List.map_congr_left fun l hl => (hrewrite l hl).2
  let rewritten : Collection α := ⟨kept.rows.map d.rewrite, hkeys ▸ kept.keys_nodup⟩
  have hupdate : kept.update d.rewrite (fun x => (d.alterationOf? x).isSome) =
      .ok (rewritten, (kept.rows.filter fun x => (d.alterationOf? x).isSome).map d.rewrite) := by
    refine update_eq_ok_iff.2 ⟨List.map_congr_left fun l _ => ?_, rfl⟩
    unfold Difference.rewrite
    cases d.alterationOf? l <;> rfl
  have hnew : ((rewritten.rows ++ d.created).map Row.key).Nodup := by
    rw [List.map_append]
    refine List.Nodup.append rewritten.keys_nodup
      (target.keys_nodup.sublist (List.filter_sublist.map _)) ?_
    intro k hk hk'
    rw [show rewritten.rows.map Row.key = _ from hkeys] at hk
    obtain ⟨l, hl, rfl⟩ := List.mem_map.1 hk
    obtain ⟨r, hr, e⟩ := List.mem_map.1 hk'
    have hfree := (mem_created_iff.1 hr).2
    rw [e, hasKey_key (mem_kept_iff.1 hl).1] at hfree
    cases hfree
  refine ⟨d.created.foldl .insert rewritten, ?_, ?_⟩
  · show (kept.update d.rewrite _ >>= _) = _
    rw [hupdate]
    rfl
  · rw [rows_foldl_insert hnew, List.perm_ext_iff_of_nodup hnew.of_map target.nodup_rows]
    intro r
    rw [List.mem_append, mem_created_iff]
    constructor
    · rintro (h | h)
      · obtain ⟨l, hl, rfl⟩ := List.mem_map.1 h
        exact (hrewrite l hl).1
      · exact h.1
    · intro hr
      cases hk : source.hasKey (Row.key r) with
      | false => exact .inr ⟨hr, rfl⟩
      | true =>
        obtain ⟨l, hl, e⟩ := hasKey_iff_exists.1 hk
        refine .inl (List.mem_map.2 ⟨l, mem_kept_iff.2 ⟨hl, ?_⟩, rewrite_eq hl hr e⟩)
        rw [e]
        exact hasKey_key hr

end

variable [DecidableEq α]

/-- **A difference is empty exactly between equal collections.** -/
theorem difference_isEmpty_iff [Fielded α κ] (source target : Collection α) :
    (source.difference target).isEmpty = true ↔ source.sameRows target = true := by
  rw [sameRows_iff_perm]
  constructor
  · intro h
    obtain ⟨c, hc, hperm⟩ := exists_patch? source target
    rw [Difference.patch?_of_isEmpty h] at hc
    cases hc
    exact hperm
  · intro h
    rw [difference_of_perm h]
    rfl

/-- **A difference is a patch**, for rows of any kind. Carried out on the one collection it gives
the other one; an alteration has deltas for exactly the attributes in which its two rows differ;
there is nothing in it exactly if the collections are equal; and seen from the other side, what was
dropped is created, what was created is dropped, and the alterations lead back. -/
theorem difference_is_patch [Fielded α κ] (source target : Collection α) :
    (∃ c, (source.difference target).patch? source = .ok c ∧ c.sameRows target = true) ∧
    (∀ a ∈ (source.difference target).altered,
      a.left ∈ source.rows ∧ a.right ∈ target.rows ∧ Row.key a.left = Row.key a.right ∧
      ∀ f d, a.change f = some d ↔
        Attributed.get (α := α) f a.left ≠ Attributed.get f a.right ∧
          d = ⟨Attributed.get (α := α) f a.left, Attributed.get f a.right⟩) ∧
    ((source.difference target).isEmpty = true ↔ source.sameRows target = true) ∧
    (target.difference source).created = (source.difference target).dropped ∧
    (target.difference source).dropped = (source.difference target).created ∧
    (target.difference source).altered.Perm
      ((source.difference target).altered.map Alteration.reversed) := by
  refine ⟨?_, fun a ha => ?_, difference_isEmpty_iff source target, rfl, rfl,
    altered_perm_reversed source target⟩
  · obtain ⟨c, hc, hperm⟩ := exists_patch? source target
    exact ⟨c, hc, sameRows_iff_perm.2 hperm⟩
  · obtain ⟨hl, hr, hk, hbetween⟩ := exists_of_mem_altered ha
    refine ⟨hl, hr, hk, fun f d => ?_⟩
    rw [hbetween]
    exact Alteration.change_between_eq_some_iff

end Collection

end SchemaEvolution
