import SchemaEvolution.Proofs.FoldedText

/-!
# Texts in lower case

Lower case is final: the table leads to no code point that it changes, and not to the capital I
with a dot (`lowerChar_lowerChar`). So a text of lower-case forms stays as it is, in whatever order
they stand (`lowercase_eq_self`), and **lower case changes nothing the second time**
(`lowercase_lowercase`).

Lower case looks around for the form of a small sigma only, and never beyond a seam (`Seam`), a
character that is no letter and that the case rules do not ignore. Blanks, parentheses and commas
are seams. So **a text can be cut at a seam before or after it goes into lower case**
(`lowercase_append_seam`).

The case of ASCII letters makes no difference (`lowercase_map_toLower`).
-/

namespace SchemaEvolution.Text

/-! ## Lower-case forms -/

/-- Whether a lower-case form that a run gives may lie on another run. It does not if the ranges
are apart, or if capital and small letters alternate in both. -/
def CaseRun.meets (r s : CaseRun) : Bool :=
  s.first.ble (r.last + r.offset).toNat && (r.first + r.offset).toNat.ble s.last &&
    !(s.step == 2 && (r.step == 2 || r.first == r.last) && (r.first + r.offset + s.first) % 2 == 1)

/-- The code point of the capital I with a dot, as a run. -/
def dottedCapital : CaseRun :=
  ⟨0x130, 0x130, 1, 0⟩

/-- No run leads to a code point that lower case changes. -/
theorem no_run_meets :
    (lowerRuns.any fun r => (dottedCapital :: lowerRuns).any r.meets) = false := by
  decide +kernel

theorem runs_lead_to_letters : (lowerRuns.all fun r => casedRanges.any fun s =>
    s.1.ble (r.first + r.offset).toNat && (r.last + r.offset).toNat.ble s.2) = true := by
  decide +kernel

theorem CaseRun.step_of_not_meets {r s : CaseRun} {n m : Nat} (h : r.meets s = false)
    (hfirst : r.first ≤ n) (hlast : n ≤ r.last) (hstep : (n - r.first) % r.step = 0)
    (hm : (m : Int) = n + r.offset) (hfirst' : s.first ≤ m) (hlast' : m ≤ s.last) :
    (m - s.first) % s.step ≠ 0 := by
  have hoverlap :
      s.first.ble (r.last + r.offset).toNat && (r.first + r.offset).toNat.ble s.last := by
    simp only [Bool.and_eq_true, Nat.ble_eq]
    omega
  rw [CaseRun.meets, hoverlap, Bool.true_and, Bool.not_eq_false'] at h
  simp only [Bool.and_eq_true, Bool.or_eq_true, beq_iff_eq] at h
  obtain ⟨⟨hs, hr⟩, hodd⟩ := h
  rw [hs]
  -- `n` has the parity of the first code point of its run, also if that is the only one
  rcases hr with hr | hr
  · rw [hr] at hstep
    omega
  · omega

/-- What has moved along a run lies on no run. -/
theorem step_lowerChar {c : Char} (h : lowerChar c ≠ c) {s : CaseRun}
    (hs : s ∈ dottedCapital :: lowerRuns) (hfirst : s.first ≤ (lowerChar c).toNat)
    (hlast : (lowerChar c).toNat ≤ s.last) : ((lowerChar c).toNat - s.first) % s.step ≠ 0 := by
  obtain ⟨r, hr, hfirst', hlast', hstep, hc⟩ := (lowerChar_cases c).resolve_left h
  have hruns : (dottedCapital :: lowerRuns).any r.meets = false := by
    simpa using List.any_eq_false.1 no_run_meets r hr
  have hmeets : r.meets s = false := by
    simpa using List.any_eq_false.1 hruns s hs
  exact CaseRun.step_of_not_meets hmeets hfirst' hlast' hstep hc hfirst hlast

/-- **A lower-case form is its own lower-case form.** -/
theorem lowerChar_lowerChar (c : Char) : lowerChar (lowerChar c) = lowerChar c := by
  by_cases h : lowerChar c = c
  · rw [h, h]
  · obtain hlower | ⟨s, hs, hfirst, hlast, hstep, -⟩ := lowerChar_cases (lowerChar c)
    · exact hlower
    · exact absurd hstep (step_lowerChar h (List.mem_cons_of_mem _ hs) hfirst hlast)

theorem cased_lowerChar {c : Char} (h : lowerChar c ≠ c) :
    inRanges casedRanges (lowerChar c).toNat = true := by
  obtain ⟨r, hr, hfirst, hlast, -, hc⟩ := (lowerChar_cases c).resolve_left h
  obtain ⟨s, hs, hrange⟩ := List.any_eq_true.1 (List.all_eq_true.1 runs_lead_to_letters r hr)
  rw [Bool.and_eq_true, Nat.ble_eq, Nat.ble_eq] at hrange
  exact inRanges_iff.2 ⟨s, hs, by omega, by omega⟩

/-- A character that lower case leaves alone, wherever it stands. -/
structure Lowered (c : Char) : Prop where
  unmoved : lowerChar c = c
  not_sigma : c ≠ 'Σ'
  not_dotted : c ≠ 'İ'

instance (c : Char) : Decidable (Lowered c) :=
  decidable_of_iff (lowerChar c = c ∧ c ≠ 'Σ' ∧ c ≠ 'İ')
    ⟨fun ⟨hc, hs, hd⟩ => ⟨hc, hs, hd⟩, fun h => ⟨h.unmoved, h.not_sigma, h.not_dotted⟩⟩

theorem lowered_lowerChar {c : Char} (hc : c ≠ 'İ') : Lowered (lowerChar c) where
  unmoved := lowerChar_lowerChar c
  not_sigma h := by
    have hsigma : lowerChar 'Σ' ≠ 'Σ' := by decide +kernel
    exact hsigma (h ▸ lowerChar_lowerChar c)
  not_dotted h := by
    by_cases hmoved : lowerChar c = c
    · exact hc (hmoved ▸ h)
    · have hstep := step_lowerChar hmoved List.mem_cons_self
      rw [h] at hstep
      exact hstep (by decide) (by decide) (by decide)

section

variable {m d : Char} {xs ys cs : List Char}

theorem mem_lowercase_cases (h : d ∈ lowercase cs) :
    (∃ c ∈ cs, c ≠ 'İ' ∧ d = lowerChar c) ∨ d ∈ ['σ', 'ς', 'i', '\u0307'] := by
  have hafter (cs before : List Char) (h : d ∈ lowercaseAfter before cs) :
      (∃ c ∈ cs, c ≠ 'İ' ∧ d = lowerChar c) ∨ d ∈ ['σ', 'ς', 'i', '\u0307'] := by
    induction cs generalizing before with
    | nil => cases h
    | cons c cs ih =>
      rw [lowercaseAfter, List.mem_append] at h
      rcases h with h | h
      · split at h
        · right
          split at h <;> simp_all
        · split at h
          · right
            simp_all
          next hdotted => exact .inl ⟨c, List.mem_cons_self, hdotted, List.mem_singleton.1 h⟩
      · refine (ih _ h).imp_left ?_
        rintro ⟨e, he, hform⟩
        exact ⟨e, List.mem_cons_of_mem _ he, hform⟩
  exact hafter cs [] h

theorem lowered_of_mem_lowercase (h : d ∈ lowercase cs) : Lowered d := by
  have hspecial : ['σ', 'ς', 'i', '\u0307'].all fun d => Lowered d := by decide +kernel
  rcases mem_lowercase_cases h with ⟨c, -, hc, rfl⟩ | hd
  · exact lowered_lowerChar hc
  · exact of_decide_eq_true (List.all_eq_true.1 hspecial d hd)

/-- **A text of lower-case forms stays as it is.** -/
theorem lowercase_eq_self (h : ∀ c ∈ cs, Lowered c) : lowercase cs = cs := by
  have hafter (before : List Char) : lowercaseAfter before cs = cs := by
    induction cs generalizing before with
    | nil => rfl
    | cons c cs ih =>
      obtain ⟨hc, hcs⟩ := List.forall_mem_cons.1 h
      rw [lowercaseAfter, if_neg hc.not_sigma, if_neg hc.not_dotted, hc.unmoved, ih hcs]
      rfl
  exact hafter []

/-- **Lower case changes nothing the second time.** -/
theorem lowercase_lowercase (cs : List Char) : lowercase (lowercase cs) = lowercase cs :=
  lowercase_eq_self fun _ => lowered_of_mem_lowercase

/-! ## Seams -/

/-- A character beyond which the case rules do not look. -/
structure Seam (c : Char) : Prop where
  unmoved : lowerChar c = c
  uncased : inRanges casedRanges c.toNat = false
  heeded : inRanges caseIgnorableRanges c.toNat = false

instance (c : Char) : Decidable (Seam c) :=
  decidable_of_iff
    (lowerChar c = c ∧ inRanges casedRanges c.toNat = false ∧
      inRanges caseIgnorableRanges c.toNat = false)
    ⟨fun ⟨hc, hu, hh⟩ => ⟨hc, hu, hh⟩, fun h => ⟨h.unmoved, h.uncased, h.heeded⟩⟩

theorem Seam.ne_sigma (hm : Seam m) : m ≠ 'Σ' := by
  rintro rfl
  exact absurd hm.uncased (by decide +kernel)

theorem Seam.ne_dotted (hm : Seam m) : m ≠ 'İ' := by
  rintro rfl
  exact absurd hm.uncased (by decide +kernel)

theorem startsCased_append_seam (hm : Seam m) (xs ys : List Char) :
    startsCased (xs ++ m :: ys) = startsCased xs := by
  rw [startsCased, startsCased, List.dropWhile_append]
  by_cases hxs : xs.dropWhile (fun c => inRanges caseIgnorableRanges c.toNat) = []
  · simp [hxs, hm.heeded, hm.uncased]
  · obtain ⟨c, rest, hrest⟩ := List.exists_cons_of_ne_nil hxs
    simp [hrest]

/-- What stands in front of a seam has no say. -/
theorem lowercaseAfter_append_seam (hm : Seam m) (before before' cs : List Char) :
    lowercaseAfter (before ++ m :: before') cs = lowercaseAfter before cs := by
  induction cs generalizing before with
  | nil => rfl
  | cons c cs ih =>
    rw [lowercaseAfter, lowercaseAfter, startsCased_append_seam hm, ← List.cons_append, ih]

/-- **A text can be cut at a seam** before or after it goes into lower case. -/
theorem lowercase_append_seam (hm : Seam m) (xs ys : List Char) :
    lowercase (xs ++ m :: ys) = lowercase xs ++ m :: lowercase ys := by
  have hafter (before : List Char) :
      lowercaseAfter before (xs ++ m :: ys) = lowercaseAfter before xs ++ m :: lowercase ys := by
    induction xs generalizing before with
    | nil =>
      rw [lowercaseAfter, List.nil_append, List.nil_append, lowercaseAfter, if_neg hm.ne_sigma,
        if_neg hm.ne_dotted, hm.unmoved]
      exact congrArg (m :: ·) (lowercaseAfter_append_seam hm [] before ys)
    | cons x xs ih =>
      rw [List.cons_append, lowercaseAfter, startsCased_append_seam hm, ih, lowercaseAfter,
        List.append_assoc]
  exact hafter []

/-- **A text in lower case has no other seams** than the text. -/
theorem Seam.mem_of_mem_lowercase (hm : Seam m) (h : m ∈ lowercase cs) : m ∈ cs := by
  have hspecial : ['σ', 'ς', 'i', '\u0307'].all fun d => ¬Seam d := by decide +kernel
  rcases mem_lowercase_cases h with ⟨c, hc, -, rfl⟩ | hd
  · by_cases hmoved : lowerChar c = c
    · rwa [hmoved]
    · have hcased := cased_lowerChar hmoved
      rw [hm.uncased] at hcased
      cases hcased
  · exact absurd hm (of_decide_eq_true (List.all_eq_true.1 hspecial m hd))

theorem blanks_apart : ∀ r ∈ blankRanges, ∀ s ∈ casedRanges ++ caseIgnorableRanges,
    r.2 < s.1 ∨ s.2 < r.1 := by
  decide +kernel

theorem seam_of_isBlank (h : isBlank m = true) : Seam m := by
  obtain ⟨r, hr, hlow, hhigh⟩ := inRanges_iff.1 h
  have hout {ranges : List (Nat × Nat)} (hsub : ranges ⊆ casedRanges ++ caseIgnorableRanges) :
      inRanges ranges m.toNat = false := by
    rw [Bool.eq_false_iff, ne_eq, inRanges_iff]
    rintro ⟨s, hs, hlow', hhigh'⟩
    have := blanks_apart r hr s (hsub hs)
    omega
  refine ⟨?_, hout (List.subset_append_left _ _), hout (List.subset_append_right _ _)⟩
  by_contra hne
  have hsteady := (steady_lowerChar_of_ne hne).1
  rw [steady_iff.2 (.inr h)] at hsteady
  cases hsteady

/-! ## ASCII letters -/

/-- The capital letters in ASCII. -/
def asciiCapitals : List Char :=
  (List.range 26).map fun k => Char.ofNat (0x41 + k)

theorem toLower_cases (c : Char) : c.toLower = c ∨ c ∈ asciiCapitals := by
  by_cases h : c.val ≥ 'A'.val ∧ c.val ≤ 'Z'.val
  · have hfirst : 0x41 ≤ c.toNat := h.1
    have hlast : c.toNat ≤ 0x5A := h.2
    refine .inr (List.mem_map.2 ⟨c.toNat - 0x41, List.mem_range.2 (by omega), ?_⟩)
    rw [Nat.add_sub_of_le hfirst, Char.ofNat_toNat]
  · exact .inl (dif_neg h)

/-- Characters that the case rules do not tell apart. -/
structure SameCase (c d : Char) : Prop where
  sigma : c = 'Σ' ↔ d = 'Σ'
  dotted : c = 'İ' ↔ d = 'İ'
  form : lowerChar c = lowerChar d
  cased : inRanges casedRanges c.toNat = inRanges casedRanges d.toNat
  ignored : inRanges caseIgnorableRanges c.toNat = inRanges caseIgnorableRanges d.toNat

instance (c d : Char) : Decidable (SameCase c d) :=
  decidable_of_iff
    ((c = 'Σ' ↔ d = 'Σ') ∧ (c = 'İ' ↔ d = 'İ') ∧ lowerChar c = lowerChar d ∧
      inRanges casedRanges c.toNat = inRanges casedRanges d.toNat ∧
      inRanges caseIgnorableRanges c.toNat = inRanges caseIgnorableRanges d.toNat)
    ⟨fun ⟨hs, hd, hf, hc, hi⟩ => ⟨hs, hd, hf, hc, hi⟩,
      fun h => ⟨h.sigma, h.dotted, h.form, h.cased, h.ignored⟩⟩

theorem sameCase_toLower (c : Char) : SameCase c.toLower c := by
  have hcapitals : asciiCapitals.all fun c => SameCase c.toLower c := by decide +kernel
  rcases toLower_cases c with hc | hc
  · rw [hc]
    exact ⟨.rfl, .rfl, rfl, rfl, rfl⟩
  · exact of_decide_eq_true (List.all_eq_true.1 hcapitals c hc)

theorem startsCased_map_toLower (cs : List Char) :
    startsCased (cs.map Char.toLower) = startsCased cs := by
  have hignored : (fun c => inRanges caseIgnorableRanges c.toNat) ∘ Char.toLower =
      fun c => inRanges caseIgnorableRanges c.toNat :=
    funext fun c => (sameCase_toLower c).ignored
  rw [startsCased, startsCased, List.dropWhile_map, hignored]
  cases cs.dropWhile fun c => inRanges caseIgnorableRanges c.toNat with
  | nil => rfl
  | cons c rest => exact (sameCase_toLower c).cased

/-- **The case of ASCII letters makes no difference** in lower case. -/
theorem lowercase_map_toLower (cs : List Char) :
    lowercase (cs.map Char.toLower) = lowercase cs := by
  have hafter (before : List Char) : lowercaseAfter (before.map Char.toLower)
      (cs.map Char.toLower) = lowercaseAfter before cs := by
    induction cs generalizing before with
    | nil => rfl
    | cons c cs ih =>
      have hc := sameCase_toLower c
      rw [List.map_cons, lowercaseAfter, lowercaseAfter, startsCased_map_toLower,
        startsCased_map_toLower, ← List.map_cons, ih, hc.form]
      simp only [hc.sigma, hc.dotted]
  exact hafter []

theorem isBlank_toLower (c : Char) : isBlank c.toLower = isBlank c := by
  have hcapitals : asciiCapitals.all fun c => isBlank c.toLower == isBlank c := by decide +kernel
  rcases toLower_cases c with hc | hc
  · rw [hc]
  · exact eq_of_beq (List.all_eq_true.1 hcapitals c hc)

end

end SchemaEvolution.Text
