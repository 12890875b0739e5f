import SchemaEvolution.Proofs.StringLiterals

/-!
# Letter case and blanks inside string literals

Types and expressions are folded before they are compared: the text goes into lower case, and each
run of blanks becomes one space. Folding does not heed quotes, so it reaches into the string
literals. These are the laws of what it does there.

**Lower case without context** (`map_medial_lowercase`). The form of a small sigma depends on what
stands around it. With all small sigmas alike, lower case maps each character by itself
(`caseless`). The table of lower-case forms moves no blank and no quote, and nothing to one
(`steady`).

**Words** (`spaced_eq`). The words of a text, one space apart, are the text with each run of blanks
made one space, less the blanks at its end.

Both are rewritings that erase no gap, so **the literals of a folded text are the folded literals**
(`Sql.literals_caseless`, `Sql.literals_spaced`).
-/

namespace SchemaEvolution

open Sql

namespace Text

/-! ## Lower case -/

/-- A small sigma in the form that it has inside a word. -/
def medial (c : Char) : Char :=
  if c = 'ς' then 'σ' else c

/-- The lower-case form of a character, with all small sigmas alike. -/
def caselessChar (c : Char) : List Char :=
  if c = 'Σ' then ['σ'] else if c = 'İ' then ['i', '\u0307'] else [medial (lowerChar c)]

/-- The lower-case form of a text, with all small sigmas alike. -/
def caseless (cs : List Char) : List Char :=
  cs.flatMap caselessChar

theorem caseless_cons (c : Char) (cs : List Char) :
    caseless (c :: cs) = caselessChar c ++ caseless cs := rfl

/-- **Lower case needs no context** but for the form of a small sigma. -/
theorem map_medial_lowercase (cs : List Char) : (lowercase cs).map medial = caseless cs := by
  have hafter : ∀ before, (lowercaseAfter before cs).map medial = caseless cs := by
    induction cs with
    | nil => exact fun _ => rfl
    | cons c cs ih =>
      intro before
      rw [lowercaseAfter, List.map_append, ih, caseless_cons]
      congr 1
      unfold caselessChar
      split
      · split <;> rfl
      · split <;> rfl
  exact hafter []

/-! ## Characters that have no case -/

/-- Whether a character is a blank or a quote. -/
def steady (c : Char) : Bool :=
  inRanges ((0x27, 0x27) :: blankRanges) c.toNat

theorem steady_iff {c : Char} : steady c = true ↔ c = '\'' ∨ isBlank c = true := by
  have hquote : (0x27 ≤ c.toNat ∧ c.toNat ≤ 0x27) ↔ c = '\'' := by
    rw [← Char.toNat_inj]
    exact ⟨fun h => Nat.le_antisymm h.2 h.1, fun h => ⟨h.ge, h.le⟩⟩
  rw [steady, inRanges_iff, List.exists_mem_cons_iff, isBlank, inRanges_iff, hquote]

theorem runs_valid : ∀ r ∈ lowerRuns, 0 ≤ r.first + r.offset ∧
    (r.last + r.offset < 0xD800 ∨
      0xDFFF < r.first + r.offset ∧ r.last + r.offset < 0x110000) := by
  decide +kernel

/-- A character is its own lower-case form, or moves by the offset of a run that it lies on. -/
theorem lowerChar_cases (c : Char) : lowerChar c = c ∨ ∃ r ∈ lowerRuns,
    r.first ≤ c.toNat ∧ c.toNat ≤ r.last ∧ (c.toNat - r.first) % r.step = 0 ∧
      ((lowerChar c).toNat : Int) = c.toNat + r.offset := by
  unfold lowerChar
  split
  next h =>
    have hascii : ∀ n < 0x80, (Char.ofNat n).toLower = Char.ofNat n ∨
        0x41 ≤ n ∧ n ≤ 0x5A ∧ (Char.ofNat n).toLower.toNat = n + 32 := by decide
    obtain hc | ⟨hfirst, hlast, hc⟩ := Char.ofNat_toNat c ▸ hascii c.toNat h
    · exact .inl hc
    · refine .inr ⟨⟨0x41, 0x5A, 1, 32⟩, List.mem_cons_self, hfirst, hlast, Nat.mod_one _, ?_⟩
      rw [hc]
      rfl
  next h =>
    split
    next r hr =>
      have hbounds := List.find?_some hr
      simp only [Bool.and_eq_true, decide_eq_true_eq, beq_iff_eq] at hbounds
      obtain ⟨⟨hfirst, hlast⟩, hstep⟩ := hbounds
      have hrun := List.mem_of_find?_eq_some hr
      have := runs_valid r hrun
      have hvalid : (c.toNat + r.offset).toNat.isValidChar := by
        rw [Nat.isValidChar]
        omega
      refine .inr ⟨r, hrun, hfirst, hlast, hstep, ?_⟩
      rw [Char.ofNat, dif_pos hvalid]
      exact Int.toNat_of_nonneg (by omega)
    next => exact .inl rfl

/-- No blank and no quote is a letter or the lower-case form of one. -/
theorem runs_apart : ∀ r ∈ lowerRuns, ∀ s ∈ (0x27, 0x27) :: blankRanges,
    (r.last < s.1 ∨ s.2 < r.first) ∧
      ((r.last : Int) + r.offset < s.1 ∨ (s.2 : Int) < r.first + r.offset) := by
  decide +kernel

theorem steady_lowerChar_of_ne {c : Char} (h : lowerChar c ≠ c) :
    steady c = false ∧ steady (lowerChar c) = false := by
  obtain hc | ⟨r, hr, hfirst, hlast, -, hc⟩ := lowerChar_cases c
  · exact absurd hc h
  constructor <;> rw [Bool.eq_false_iff, ne_eq, steady, inRanges_iff]
  · rintro ⟨s, hs, hle, hge⟩
    have := (runs_apart r hr s hs).1
    omega
  · rintro ⟨s, hs, hle, hge⟩
    have := (runs_apart r hr s hs).2
    omega

theorem caselessChar_of_steady {c : Char} (h : steady c = true) : caselessChar c = [c] := by
  have hlower : lowerChar c = c := by
    by_contra hne
    rw [(steady_lowerChar_of_ne hne).1] at h
    cases h
  have hne {d : Char} (hd : steady d = false) : c ≠ d := by
    rintro rfl
    rw [hd] at h
    cases h
  rw [caselessChar, if_neg (hne (by decide)), if_neg (hne (by decide)), hlower, medial,
    if_neg (hne (by decide))]

theorem steady_of_mem_caselessChar {c d : Char} (h : steady c = false) (hd : d ∈ caselessChar c) :
    steady d = false := by
  unfold caselessChar at hd
  split at hd
  · obtain rfl := List.mem_singleton.1 hd
    decide
  split at hd
  · simp only [List.mem_cons, List.not_mem_nil, or_false] at hd
    rcases hd with rfl | rfl <;> decide
  obtain rfl := List.mem_singleton.1 hd
  unfold medial
  split
  · decide
  · by_cases hc : lowerChar c = c
    · rw [hc, h]
    · exact (steady_lowerChar_of_ne hc).2

theorem caselessChar_ne_nil (c : Char) : caselessChar c ≠ [] := by
  unfold caselessChar
  split
  · simp
  · split <;> simp

theorem withoutBlanks_append (xs ys : List Char) :
    withoutBlanks (xs ++ ys) = withoutBlanks xs ++ withoutBlanks ys :=
  List.filter_append xs ys

theorem withoutBlanks_eq_self {cs : List Char} (h : ∀ c ∈ cs, isBlank c = false) :
    withoutBlanks cs = cs :=
  List.filter_eq_self.2 fun c hc => by simp [h c hc]

theorem quote_mem_withoutBlanks_iff {cs : List Char} : '\'' ∈ withoutBlanks cs ↔ '\'' ∈ cs := by
  rw [withoutBlanks, List.mem_filter, and_iff_left (by decide)]

/-- Blanks can be removed before or after the text goes into lower case. -/
theorem withoutBlanks_caseless (cs : List Char) :
    withoutBlanks (caseless cs) = caseless (withoutBlanks cs) := by
  have hchar (c : Char) : withoutBlanks (caselessChar c) = caseless (withoutBlanks [c]) := by
    by_cases hs : steady c = true
    · rw [caselessChar_of_steady hs]
      by_cases hc : isBlank c = true
      · simp [withoutBlanks, hc, caseless]
      · simp [withoutBlanks, hc, caseless, caselessChar_of_steady hs]
    · have hblank {d : Char} (hd : steady d = false) : isBlank d = false := by
        rw [Bool.eq_false_iff, ne_eq, steady_iff, not_or] at hd
        exact Bool.eq_false_iff.2 hd.2
      rw [Bool.not_eq_true] at hs
      rw [withoutBlanks_eq_self fun d hd => hblank (steady_of_mem_caselessChar hs hd),
        withoutBlanks_eq_self fun d hd => hblank (List.mem_singleton.1 hd ▸ hs)]
      simp [caseless]
  induction cs with
  | nil => rfl
  | cons c cs ih =>
    have happend (xs ys : List Char) : caseless (xs ++ ys) = caseless xs ++ caseless ys :=
      List.flatMap_append
    rw [caseless_cons, withoutBlanks_append, ih, hchar, ← happend, ← withoutBlanks_append,
      List.singleton_append]

/-! ## Words -/

/-- A blank is kept as a space if no blank stands before it. -/
def squeeze (before c : Char) : List Char :=
  if isBlank c then if isBlank before then [] else [' '] else [c]

/-- A text with each run of blanks made one space. -/
def squeezed (cs : List Char) : List Char :=
  rewrite squeeze '\'' cs

theorem rewrite_squeeze_congr {b b' : Char} (h : isBlank b = isBlank b') (cs : List Char) :
    rewrite squeeze b cs = rewrite squeeze b' cs := by
  cases cs with
  | nil => rfl
  | cons c cs => rw [rewrite, rewrite, squeeze, squeeze, h]

theorem trimEnd_cons (c : Char) (cs : List Char) :
    trimEnd (c :: cs) = if isBlank c = true ∧ trimEnd cs = [] then [] else c :: trimEnd cs := by
  rw [trimEnd, trimStart, List.reverse_cons, List.dropWhile_append, ← trimStart]
  by_cases hcs : trimStart cs.reverse = []
  · by_cases hc : isBlank c = true <;> simp [trimEnd, hcs, hc]
  · simp [trimEnd, hcs]

theorem words_cons_of_blank {c : Char} (h : isBlank c = true) (cs : List Char) :
    words (c :: cs) = words cs := by
  rw [words, List.splitOnP_cons_eq_if_modifyHead, if_pos h]
  rfl

theorem splitOnP_cons_of_not_blank {c : Char} (h : isBlank c = false) (cs : List Char) :
    (c :: cs).splitOnP isBlank = (cs.splitOnP isBlank).modifyHead (c :: ·) := by
  rw [List.splitOnP_cons_eq_if_modifyHead, if_neg (by simp [h])]

theorem words_cons_blank {c d : Char} (hc : isBlank c = false) (hd : isBlank d = true)
    (cs : List Char) : words (c :: d :: cs) = [c] :: words cs := by
  rw [words, splitOnP_cons_of_not_blank hc, List.splitOnP_cons_eq_if_modifyHead, if_pos hd]
  rfl

/-- What is no blank begins a word, or goes on with the one before. -/
theorem exists_words_cons {d : Char} (hd : isBlank d = false) (cs : List Char) :
    ∃ w ws, words (d :: cs) = (d :: w) :: ws ∧
      ∀ c, isBlank c = false → words (c :: d :: cs) = (c :: d :: w) :: ws := by
  obtain ⟨w, ws, hw⟩ := List.exists_cons_of_ne_nil (List.splitOnP_ne_nil isBlank cs)
  refine ⟨w, ws.filter (fun w => !w.isEmpty), ?_, fun c hc => ?_⟩
  · rw [words, splitOnP_cons_of_not_blank hd, hw]
    rfl
  · rw [words, splitOnP_cons_of_not_blank hc, splitOnP_cons_of_not_blank hd, hw]
    rfl

theorem spaced_eq_nil_iff (cs : List Char) : spaced cs = [] ↔ words cs = [] := by
  rw [spaced]
  cases h : words cs with
  | nil => simp
  | cons w ws =>
    have hw : w ≠ [] := words_ne_nil (h ▸ List.mem_cons_self)
    cases ws <;> simp [List.intercalate_cons_cons, hw]

theorem spaced_cons_of_blank {c : Char} (h : isBlank c = true) (cs : List Char) :
    spaced (c :: cs) = spaced cs := by
  rw [spaced, words_cons_of_blank h, spaced]

theorem spaced_cons_blank {c d : Char} (hc : isBlank c = false) (hd : isBlank d = true)
    (cs : List Char) :
    spaced (c :: d :: cs) = if spaced cs = [] then [c] else c :: ' ' :: spaced cs := by
  rw [spaced, words_cons_blank hc hd]
  split
  next h => rw [(spaced_eq_nil_iff cs).1 h]; rfl
  next h => rw [List.intercalate_cons_of_ne_nil (mt (spaced_eq_nil_iff cs).2 h)]; rfl

theorem spaced_cons_cons {c d : Char} (hc : isBlank c = false) (hd : isBlank d = false)
    (cs : List Char) : spaced (c :: d :: cs) = c :: spaced (d :: cs) := by
  obtain ⟨w, ws, hw, hnext⟩ := exists_words_cons hd cs
  rw [spaced, hnext c hc, spaced, hw]
  cases ws <;> rfl

/-- **The words of a text, one space apart**, are the text with each run of blanks made one space,
less the blanks at its ends. -/
theorem spaced_eq (cs : List Char) : spaced cs = trimEnd (rewrite squeeze ' ' cs) := by
  induction cs with
  | nil => rfl
  | cons c cs ih =>
    have hspace : isBlank ' ' = true := by decide
    by_cases hc : isBlank c = true
    · have hs : squeeze ' ' c = [] := by simp [squeeze, hc, hspace]
      rw [spaced_cons_of_blank hc, ih, rewrite, hs, List.nil_append,
        rewrite_squeeze_congr (hc.trans hspace.symm)]
    · have hs (b : Char) : squeeze b c = [c] := by simp [squeeze, hc]
      rw [rewrite, hs, List.singleton_append, trimEnd_cons, if_neg (fun h => hc h.1)]
      rw [Bool.not_eq_true] at hc
      cases cs with
      | nil =>
        rw [spaced, words, splitOnP_cons_of_not_blank hc, List.splitOnP_nil]
        rfl
      | cons d cs =>
        by_cases hd : isBlank d = true
        · have hs' : squeeze ' ' d = [] := by simp [squeeze, hd, hspace]
          have hs'' : squeeze c d = [' '] := by simp [squeeze, hc, hd]
          rw [spaced_cons_of_blank hd, rewrite, hs', List.nil_append] at ih
          rw [spaced_cons_blank hc hd, rewrite, hs'', ih, List.singleton_append, trimEnd_cons]
          by_cases he : trimEnd (rewrite squeeze d cs) = [] <;> simp [he, hspace]
        · rw [Bool.not_eq_true] at hd
          rw [spaced_cons_cons hc hd, ih]
          simp [rewrite, squeeze, hd]

theorem withoutBlanks_rewrite_squeeze (b : Char) (cs : List Char) :
    withoutBlanks (rewrite squeeze b cs) = withoutBlanks cs := by
  induction cs generalizing b with
  | nil => rfl
  | cons c cs ih =>
    have hc : withoutBlanks (squeeze b c) = withoutBlanks [c] := by
      unfold squeeze
      split
      next hc => split <;> simp [withoutBlanks, hc, show isBlank ' ' = true by decide]
      next => rfl
    rw [rewrite, withoutBlanks_append, hc, ih, ← withoutBlanks_append, List.singleton_append]

theorem withoutBlanks_trimEnd (cs : List Char) : withoutBlanks (trimEnd cs) = withoutBlanks cs := by
  induction cs with
  | nil => rfl
  | cons c cs ih =>
    rw [trimEnd_cons]
    split
    next h =>
      rw [h.2] at ih
      simpa [withoutBlanks, h.1] using ih
    next => simp only [withoutBlanks, List.filter_cons] at ih ⊢; rw [ih]

theorem withoutBlanks_trimStart (cs : List Char) :
    withoutBlanks (trimStart cs) = withoutBlanks cs := by
  induction cs with
  | nil => rfl
  | cons c cs ih =>
    by_cases hc : isBlank c = true
    · simpa [trimStart, withoutBlanks, hc] using ih
    · simp [trimStart, hc]

theorem withoutBlanks_trim (cs : List Char) : withoutBlanks (trim cs) = withoutBlanks cs := by
  rw [trim, withoutBlanks_trimEnd, withoutBlanks_trimStart]

theorem withoutBlanks_spaced (cs : List Char) : withoutBlanks (spaced cs) = withoutBlanks cs := by
  rw [spaced_eq, withoutBlanks_trimEnd, withoutBlanks_rewrite_squeeze]

theorem withoutBlanks_map_medial (cs : List Char) :
    withoutBlanks (cs.map medial) = (withoutBlanks cs).map medial := by
  have hmedial (c : Char) : isBlank (medial c) = isBlank c := by
    by_cases hc : c = 'ς'
    · subst hc
      decide
    · rw [medial, if_neg hc]
  rw [withoutBlanks, List.filter_map, withoutBlanks]
  simp only [Function.comp_def, hmedial]

theorem withoutBlanks_folded (cs : List Char) :
    (withoutBlanks (Expression.folded cs)).map medial = caseless (withoutBlanks cs) := by
  rw [← withoutBlanks_map_medial, Expression.folded, map_medial_lowercase, withoutBlanks_caseless,
    withoutBlanks_spaced]

/-! ## Literals -/

theorem keepsQuotes_squeeze : KeepsQuotes squeeze where
  quote _ := by rw [squeeze, if_neg (by decide)]
  other b c hc := by
    unfold squeeze
    split
    · split <;> decide
    · simpa using Ne.symm hc

theorem keepsQuotes_caselessChar : KeepsQuotes fun _ => caselessChar where
  quote _ := caselessChar_of_steady (by decide)
  other _ c hc hmem := by
    by_cases hs : steady c = true
    · rw [caselessChar_of_steady hs] at hmem
      exact hc (List.mem_singleton.1 hmem).symm
    · have := steady_of_mem_caselessChar (Bool.eq_false_iff.2 hs) hmem
      revert this
      decide

theorem keepsQuotes_medial : KeepsQuotes fun _ c => [medial c] where
  quote _ := by decide
  other _ c hc hmem := by
    unfold medial at hmem
    split at hmem
    · exact absurd hmem (by decide)
    · exact hc (List.mem_singleton.1 hmem).symm

theorem quote_mem_of_folded {cs : List Char} (h : '\'' ∈ Expression.folded cs) : '\'' ∈ cs := by
  have hmap : '\'' ∈ (withoutBlanks (Expression.folded cs)).map medial :=
    List.mem_map.2 ⟨'\'', quote_mem_withoutBlanks_iff.2 h, by decide⟩
  rw [withoutBlanks_folded, caseless, List.mem_flatMap] at hmap
  obtain ⟨c, hc, hquote⟩ := hmap
  obtain rfl : c = '\'' := by
    by_contra hne
    exact keepsQuotes_caselessChar.other ' ' c hne hquote
  exact quote_mem_withoutBlanks_iff.1 hc

end Text

namespace Sql

open Text

/-- **The literals of a text in lower case** are the literals in lower case. -/
theorem literals_caseless (cs : List Char) :
    literals (caseless cs) = (literals cs).map caseless := by
  have h (b : Char) : rewrite (fun _ => caselessChar) b = caseless :=
    funext (rewrite_eq_flatMap caselessChar b)
  simpa only [h] using
    literals_rewrite keepsQuotes_caselessChar (apart_of_ne_nil caselessChar_ne_nil cs) ' '

theorem literals_map_medial (cs : List Char) :
    literals (cs.map medial) = (literals cs).map (List.map medial) := by
  have h (b : Char) : rewrite (fun _ c => [medial c]) b = List.map medial :=
    funext fun cs => (rewrite_eq_flatMap (fun c => [medial c]) b cs).trans
      (List.map_eq_flatMap).symm
  simpa only [h] using
    literals_rewrite keepsQuotes_medial (apart_of_ne_nil (fun _ => List.cons_ne_nil _ _) cs) ' '

/-- **The literals of the words of a text** are the literals with their runs of blanks made one
space. -/
theorem literals_spaced (cs : List Char) : literals (spaced cs) = (literals cs).map squeezed := by
  have hne (c : Char) : squeeze '\'' c ≠ [] := by
    unfold squeeze
    split
    · rw [if_neg (by decide)]
      simp
    · simp
  rw [spaced_eq, literals_trimEnd]
  exact literals_rewrite keepsQuotes_squeeze (apart_of_ne_nil hne cs) ' '

/-- The literals of a text in lower case, with all small sigmas alike. -/
theorem literals_lowercase (cs : List Char) :
    (literals (lowercase cs)).map (List.map medial) = (literals cs).map caseless := by
  rw [← literals_map_medial, map_medial_lowercase, literals_caseless]

/-- Literals that a folding makes equal. They are equal as they stand where it leaves them alone. -/
structure SameUpTo (fold : List Char → List Char) (ls ls' : List (List Char)) : Prop where
  folded : ls.map fold = ls'.map fold
  asWritten : (∀ l ∈ ls, fold l = l) → (∀ l ∈ ls', fold l = l) → ls = ls'

theorem SameUpTo.of_map_eq {fold : List Char → List Char} {ls ls' : List (List Char)}
    (h : ls.map fold = ls'.map fold) : SameUpTo fold ls ls' where
  folded := h
  asWritten hl hl' := by
    have hfold {ls : List (List Char)} (hl : ∀ l ∈ ls, fold l = l) : ls.map fold = ls :=
      (List.map_congr_left hl).trans (List.map_id' ls)
    rwa [hfold hl, hfold hl'] at h

end Sql

end SchemaEvolution
