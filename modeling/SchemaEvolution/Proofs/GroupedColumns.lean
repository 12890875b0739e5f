import Mathlib.Data.List.Sort
import Mathlib.Data.String.Basic
import SchemaEvolution.Proofs.Rows
import SchemaEvolution.Schema.Description

/-!
# Columns grouped by table

Columns in primary keys are added one by one to those of their table. **There is always one entry
for each table, in the order of the names, with the columns of the table in the order in which they
came** (`KeyColumns.grouped_concat`).

A name that takes its place among others keeps them in order (`sorted_insertName`), and lists in
strict order are equal if they have the same members.
-/

namespace SchemaEvolution

/-! ## Names in order -/

/-- The names of a list, each once and in order. -/
def sortedNames (names : List String) : List String :=
  names.eraseDups.mergeSort fun a b => a ≤ b

/-- Inserts a name into a list of names in order, unless it is there already. -/
def insertName (name : String) : List String → List String
  | [] => [name]
  | n :: ns =>
    if name = n then n :: ns
    else if name < n then name :: n :: ns
    else n :: insertName name ns

section

variable {name n : String} {names : List String}

theorem mem_sortedNames : n ∈ sortedNames names ↔ n ∈ names := by
  rw [sortedNames, List.mem_mergeSort, List.mem_eraseDups]

theorem sorted_sortedNames (names : List String) : (sortedNames names).Pairwise (· < ·) := by
  have hle : (sortedNames names).Pairwise (· ≤ ·) :=
    List.pairwise_mergeSort' (· ≤ ·) names.eraseDups
  have hne : (sortedNames names).Pairwise (· ≠ ·) :=
    (List.mergeSort_perm _ _).nodup_iff.2 (nodup_eraseDups names)
  exact (hle.and hne).imp fun h => lt_of_le_of_ne h.1 h.2

theorem mem_insertName : n ∈ insertName name names ↔ n = name ∨ n ∈ names := by
  induction names with
  | nil => simp [insertName]
  | cons m ms ih =>
    unfold insertName
    split
    next h => simp [h]
    next h =>
      split
      · simp
      · simp only [List.mem_cons, ih]
        tauto

theorem sorted_insertName (h : names.Pairwise (· < ·)) :
    (insertName name names).Pairwise (· < ·) := by
  induction names with
  | nil => exact List.pairwise_singleton _ _
  | cons n ns ih =>
    obtain ⟨hn, hns⟩ := List.pairwise_cons.1 h
    unfold insertName
    split
    next => exact h
    next hne =>
      split
      next hlt =>
        refine List.pairwise_cons.2 ⟨fun m hm => ?_, h⟩
        rcases List.mem_cons.1 hm with rfl | hm
        · exact hlt
        · exact hlt.trans (hn m hm)
      next hge =>
        refine List.pairwise_cons.2 ⟨fun m hm => ?_, ih hns⟩
        rcases mem_insertName.1 hm with rfl | hm
        · exact lt_of_le_of_ne (not_lt.1 hge) (Ne.symm hne)
        · exact hn m hm

/-- **One more name takes its place among the others.** -/
theorem sortedNames_concat :
    sortedNames (names ++ [name]) = insertName name (sortedNames names) := by
  refine (sorted_sortedNames _).eq_of_mem_iff (sorted_insertName (sorted_sortedNames _))
    fun n => ?_
  rw [mem_sortedNames, mem_insertName, mem_sortedNames]
  simp [or_comm]

end

/-! ## Columns by table -/

namespace KeyColumns

variable {table column : String} {tables : List String}

theorem add_map (columns : String → List String) (h : table ∉ tables → columns table = [])
    (hsorted : tables.Pairwise (· < ·)) :
    add table column (tables.map fun t => (t, columns t)) =
      (insertName table tables).map fun t =>
        (t, if t = table then columns t ++ [column] else columns t) := by
  -- Only the entry of the table itself is different in the result.
  have hothers {ts : List String} (hts : table ∉ ts) :
      (ts.map fun t => (t, columns t)) = ts.map fun t =>
        (t, if t = table then columns t ++ [column] else columns t) :=
    List.map_congr_left fun t ht => by rw [if_neg fun e : t = table => hts (e ▸ ht)]
  induction tables with
  | nil => simp [add, insertName, h]
  | cons t ts ih =>
    obtain ⟨ht, hts⟩ := List.pairwise_cons.1 hsorted
    rw [List.map_cons, add, insertName]
    split
    next he =>
      subst he
      have hnot : table ∉ ts := fun hm => absurd (ht table hm) (lt_irrefl table)
      rw [List.map_cons, hothers hnot, if_pos rfl]
    next hne =>
      split
      next hlt =>
        have hnot : table ∉ t :: ts := by
          rintro (_ | ⟨_, hm⟩)
          · exact hne rfl
          · exact lt_asymm hlt (ht table hm)
        rw [List.map_cons, ← hothers hnot, if_pos rfl, h hnot]
        rfl
      next =>
        rw [List.map_cons, ih (fun hm => h (by simp [hne, hm])) hts, if_neg (Ne.symm hne)]

/-- The columns of one table among pairs of a table and a column. -/
def columnsOf (pairs : List (String × String)) (table : String) : List String :=
  (pairs.filter (·.1 = table)).map Prod.snd

/-- Columns with their tables, grouped by table in the order of the names. -/
def grouped (pairs : List (String × String)) : KeyColumns :=
  (sortedNames (pairs.map Prod.fst)).map fun t => (t, columnsOf pairs t)

theorem grouped_nil : grouped [] = [] := by
  simp [grouped, sortedNames]

theorem columnsOf_concat (pairs : List (String × String)) (t : String) :
    columnsOf (pairs ++ [(table, column)]) t =
      if t = table then columnsOf pairs t ++ [column] else columnsOf pairs t := by
  by_cases h : t = table
  · simp [columnsOf, h]
  · simp [columnsOf, h, Ne.symm h]

/-- **One more column goes into the group of its table.** -/
theorem grouped_concat (pairs : List (String × String)) :
    grouped (pairs ++ [(table, column)]) = (grouped pairs).add table column := by
  have hnone (h : table ∉ sortedNames (pairs.map Prod.fst)) : columnsOf pairs table = [] := by
    rw [mem_sortedNames] at h
    simp only [columnsOf, List.map_eq_nil_iff, List.filter_eq_nil_iff, decide_eq_true_eq]
    exact fun p hp e => h (List.mem_map.2 ⟨p, hp, e⟩)
  rw [grouped, grouped, add_map _ hnone (sorted_sortedNames _), List.map_append, List.map_singleton,
    sortedNames_concat]
  exact List.map_congr_left fun t _ => congrArg _ (columnsOf_concat pairs t)

end KeyColumns

end SchemaEvolution
