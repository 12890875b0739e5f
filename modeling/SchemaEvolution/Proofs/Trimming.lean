import Mathlib.Data.List.Infix
import Mathlib.Data.List.TakeWhile
import SchemaEvolution.Text.Blank

/-!
# Trimming

Trimming takes blanks off the ends of a text and nothing else. **A text stays as it is if no blank
stands at its ends** (`trim_eq_self_iff`), so a second time nothing is taken off (`trim_trim`), and
blanks around a text do not change what is left (`trim_blank_append`, `trim_append_blank`).
-/

namespace SchemaEvolution.Text

variable {cs ds w : List Char}

/-! ## Trimmed texts -/

theorem trimStart_eq_self_iff : trimStart cs = cs ↔ ∀ c ∈ cs.head?, isBlank c = false := by
  cases cs with
  | nil => simp [trimStart]
  | cons c cs => simp [trimStart, List.dropWhile_eq_self_iff]

theorem length_trimStart_le (cs : List Char) : (trimStart cs).length ≤ cs.length :=
  (List.dropWhile_sublist _).length_le

/-- **A text stays as it is if no blank stands at its ends.** -/
theorem trim_eq_self_iff : trim cs = cs ↔
    (∀ c ∈ cs.head?, isBlank c = false) ∧ ∀ c ∈ cs.getLast?, isBlank c = false := by
  have hend : trimEnd cs = cs ↔ ∀ c ∈ cs.getLast?, isBlank c = false := by
    rw [trimEnd, List.reverse_eq_iff, trimStart_eq_self_iff, List.head?_reverse]
  rw [← trimStart_eq_self_iff, ← hend, trim]
  constructor
  · intro h
    have hlength : (trimStart cs).length = cs.length := by
      refine Nat.le_antisymm (length_trimStart_le cs) ?_
      have hle := length_trimStart_le (trimStart cs).reverse
      rw [← congrArg List.length h, trimEnd, List.length_reverse]
      rwa [List.length_reverse] at hle
    have hstart : trimStart cs = cs := (List.dropWhile_suffix _).eq_of_length hlength
    exact ⟨hstart, by rwa [hstart] at h⟩
  · rintro ⟨hstart, hend⟩
    rw [hstart, hend]

theorem trim_append_of_trimmed (mid : List Char) (hc : trim cs = cs) (hd : trim ds = ds)
    (hcn : cs ≠ []) (hdn : ds ≠ []) : trim (cs ++ mid ++ ds) = cs ++ mid ++ ds := by
  refine trim_eq_self_iff.2 ⟨fun c h => (trim_eq_self_iff.1 hc).1 c ?_,
    fun c h => (trim_eq_self_iff.1 hd).2 c ?_⟩
  · rwa [List.append_assoc, List.head?_append_of_ne_nil _ hcn] at h
  · rwa [List.getLast?_append_of_ne_nil _ hdn] at h

/-! ## Blanks at the ends -/

theorem not_mem_of_blank {c : Char} (hc : isBlank c = false) (h : ∀ c ∈ w, isBlank c = true) :
    c ∉ w := by
  intro hm
  rw [h c hm] at hc
  cases hc

theorem trimStart_of_blank (h : ∀ c ∈ w, isBlank c = true) : trimStart w = [] :=
  List.dropWhile_eq_nil_iff.2 h

theorem trim_blank_append (h : ∀ c ∈ w, isBlank c = true) : trim (w ++ cs) = trim cs := by
  rw [trim, trimStart, List.dropWhile_append_of_pos h]
  rfl

theorem trimEnd_append_blank (h : ∀ c ∈ w, isBlank c = true) : trimEnd (cs ++ w) = trimEnd cs := by
  have hrev : ∀ c ∈ w.reverse, isBlank c = true := fun c hc => h c (List.mem_reverse.1 hc)
  rw [trimEnd, trimStart, List.reverse_append, List.dropWhile_append_of_pos hrev]
  rfl

theorem trim_append_blank (h : ∀ c ∈ w, isBlank c = true) : trim (cs ++ w) = trim cs := by
  by_cases hcs : trimStart cs = []
  · have hall : ∀ c ∈ cs ++ w, isBlank c = true := List.forall_mem_append.2
      ⟨List.dropWhile_eq_nil_iff.1 hcs, h⟩
    rw [trim, trim, trimStart_of_blank hall, hcs]
  · have hstart : trimStart (cs ++ w) = trimStart cs ++ w := by
      rw [trimStart, List.dropWhile_append, if_neg (by simpa [trimStart] using hcs)]
      rfl
    rw [trim, hstart, trimEnd_append_blank h, trim]

theorem trimStart_suffix_self (cs : List Char) : trimStart cs <:+ cs :=
  List.dropWhile_suffix _

theorem trimEnd_prefix_self (cs : List Char) : trimEnd cs <+: cs := by
  rw [trimEnd, ← List.reverse_suffix, List.reverse_reverse]
  exact trimStart_suffix_self cs.reverse

theorem exists_trimEnd_append (cs : List Char) :
    ∃ w, (∀ c ∈ w, isBlank c = true) ∧ cs = trimEnd cs ++ w := by
  refine ⟨(cs.reverse.takeWhile isBlank).reverse, fun c hc => ?_, ?_⟩
  · exact List.mem_takeWhile_imp (List.mem_reverse.1 hc)
  · rw [trimEnd, trimStart, ← List.reverse_append, List.takeWhile_append_dropWhile,
      List.reverse_reverse]

theorem trim_infix_self (cs : List Char) : trim cs <:+: cs :=
  (trimEnd_prefix_self _).isInfix.trans (trimStart_suffix_self cs).isInfix

theorem head?_trimStart (cs : List Char) : ∀ c ∈ (trimStart cs).head?, isBlank c = false := by
  intro c hc
  have hhead := List.head?_dropWhile_not isBlank cs
  rw [trimStart, Option.mem_def] at hc
  simpa [hc] using hhead

theorem trim_trim (cs : List Char) : trim (trim cs) = trim cs := by
  refine trim_eq_self_iff.2 ⟨fun c hc => ?_, fun c hc => ?_⟩
  · obtain ⟨rest, hrest⟩ := trimEnd_prefix_self (trimStart cs)
    refine head?_trimStart cs c ?_
    rw [← hrest, List.head?_append, Option.mem_def, Option.or_eq_some_iff]
    exact .inl hc
  · rw [trim, trimEnd, List.getLast?_reverse] at hc
    exact head?_trimStart _ c hc

end SchemaEvolution.Text
