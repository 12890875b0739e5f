import Mathlib.Data.List.Nodup
import SchemaEvolution.Schema.Collection

/-!
# Rows and their keys

A collection has at most one row under a key, so its rows are as good as a finite map. The facts
here are what later proofs use of a collection in place of its list of rows.
-/

namespace SchemaEvolution

theorem nodup_eraseDups {β : Type} [BEq β] [LawfulBEq β] : ∀ xs : List β, xs.eraseDups.Nodup
  | [] => List.nodup_nil
  | x :: xs => by
    rw [List.eraseDups_cons, List.nodup_cons]
    exact ⟨by simp [List.mem_eraseDups], nodup_eraseDups _⟩
termination_by xs => xs.length
decreasing_by exact Nat.lt_succ_of_le (List.length_filter_le _ _)

namespace Collection

variable {α : Type} [Row α] {c d : Collection α} {x y : α} {k : Key}

theorem ext_rows (h : c.rows = d.rows) : c = d := by
  cases c
  cases d
  cases h
  rfl

theorem nodup_rows (c : Collection α) : c.rows.Nodup :=
  c.keys_nodup.of_map

/-- **A key determines the row.** -/
theorem eq_of_key_eq (hx : x ∈ c.rows) (hy : y ∈ c.rows) (h : Row.key x = Row.key y) : x = y :=
  List.inj_on_of_nodup_map c.keys_nodup hx hy h

theorem get?_eq_some_iff : c.get? k = some x ↔ x ∈ c.rows ∧ Row.key x = k := by
  constructor
  · intro h
    exact ⟨List.mem_of_find?_eq_some h, by simpa using List.find?_some h⟩
  · intro h'
    obtain ⟨hx, rfl⟩ := h'
    cases hg : c.get? (Row.key x) with
    | none => simpa using List.find?_eq_none.1 hg x hx
    | some y =>
      have hy : Row.key y = Row.key x := by simpa using List.find?_some hg
      rw [eq_of_key_eq (List.mem_of_find?_eq_some hg) hx hy]

theorem hasKey_iff_exists : c.hasKey k = true ↔ ∃ x ∈ c.rows, Row.key x = k := by
  simp [hasKey_iff]

theorem hasKey_eq_false_iff : c.hasKey k = false ↔ ∀ x ∈ c.rows, Row.key x ≠ k := by
  rw [← Bool.not_eq_true, hasKey_iff_exists]
  push Not
  rfl

theorem hasKey_key (hx : x ∈ c.rows) : c.hasKey (Row.key x) = true :=
  hasKey_iff_exists.2 ⟨x, hx, rfl⟩

theorem rows_insert (h : c.hasKey (Row.key x) = false) : (c.insert x).rows = c.rows ++ [x] := by
  simp [insert, h]

theorem update_eq_ok_iff {change : α → α} {selects : α → Bool} {upd : List α} :
    c.update change selects = .ok (d, upd) ↔
      d.rows = c.rows.map (fun x => if selects x then change x else x) ∧
        upd = (c.rows.filter selects).map change := by
  unfold update
  dsimp only
  split
  next key h =>
    constructor
    · intro h'
      cases h'
    · intro h'
      obtain ⟨hd, -⟩ := h'
      have hn := repeated?_eq_none_iff.2 (hd ▸ d.keys_nodup)
      rw [hn] at h
      cases h
  next h =>
    simp only [Except.ok.injEq, Prod.mk.injEq]
    constructor
    · intro h'
      obtain ⟨rfl, rfl⟩ := h'
      exact ⟨rfl, rfl⟩
    · intro h'
      obtain ⟨hd, rfl⟩ := h'
      exact ⟨ext_rows hd.symm, rfl⟩

end Collection

end SchemaEvolution
