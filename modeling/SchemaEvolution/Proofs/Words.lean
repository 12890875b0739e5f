import SchemaEvolution.Proofs.Lowercase
import SchemaEvolution.Proofs.Trimming

/-!
# Texts of words

The words of a text, one space apart, are a text with the same words (`words_intercalate`), and
lower case keeps words apart. So **a folded text stays as it is when it is folded again**
(`Sql.Expression.folded_folded`). Folding sees the words only (`Sql.Expression.folded_congr`): it
heeds neither how many blanks part two words nor the blanks around a text, and the case of ASCII
letters is lost.

Beside a character that is a seam and no blank, words may end or not. So a text folds to the left of
such a character and to the right of it, but for blanks beside it
(`Sql.Expression.exists_folded_append_cons`).
-/

namespace SchemaEvolution

open Text Sql

namespace Text

/-! ## Words -/

/-- A text that is a word of its own. -/
structure IsWord (w : List Char) : Prop where
  nonempty : w ≠ []
  solid : ∀ c ∈ w, isBlank c = false

section

variable {b m : Char} {w xs ys cs : List Char} {ws : List (List Char)}

theorem solid_of_mem_splitOnP (h : w ∈ cs.splitOnP isBlank) : ∀ c ∈ w, isBlank c = false := by
  induction cs generalizing w with
  | nil =>
    rw [List.splitOnP_nil, List.mem_singleton] at h
    simp [h]
  | cons d cs ih =>
    rw [List.splitOnP_cons_eq_if_modifyHead] at h
    split at h
    next =>
      rcases List.mem_cons.1 h with rfl | h
      · simp
      · exact ih h
    next hd =>
      obtain ⟨v, vs, hv⟩ := List.exists_cons_of_ne_nil (List.splitOnP_ne_nil isBlank cs)
      rw [hv, List.modifyHead_cons] at h
      rcases List.mem_cons.1 h with rfl | h
      · exact List.forall_mem_cons.2 ⟨Bool.eq_false_iff.2 hd, ih (hv ▸ List.mem_cons_self)⟩
      · exact ih (hv ▸ List.mem_cons_of_mem _ h)

theorem isWord_of_mem_words (h : w ∈ words cs) : IsWord w where
  nonempty := words_ne_nil h
  solid := solid_of_mem_splitOnP (List.mem_of_mem_filter h)

theorem IsWord.words_eq (h : IsWord w) : words w = [w] := by
  rw [words, List.splitOnP_eq_singleton h.solid]
  simp [h.nonempty]

theorem words_append_blank (hb : isBlank b = true) (xs ys : List Char) :
    words (xs ++ b :: ys) = words xs ++ words ys := by
  rw [words, List.splitOnP_append_cons _ _ hb, List.filter_append]
  rfl

theorem words_blanks_append (hw : ∀ c ∈ w, isBlank c = true) (cs : List Char) :
    words (w ++ cs) = words cs := by
  induction w with
  | nil => rfl
  | cons b w ih =>
    obtain ⟨hb, hw⟩ := List.forall_mem_cons.1 hw
    rw [List.cons_append, words_cons_of_blank hb, ih hw]

theorem words_of_blank (hw : ∀ c ∈ w, isBlank c = true) : words w = [] := by
  rw [← List.append_nil w, words_blanks_append hw]
  rfl

theorem words_append_blanks (hw : ∀ c ∈ w, isBlank c = true) (cs : List Char) :
    words (cs ++ w) = words cs := by
  cases w with
  | nil => rw [List.append_nil]
  | cons b w =>
    obtain ⟨hb, hw⟩ := List.forall_mem_cons.1 hw
    rw [words_append_blank hb, words_of_blank hw, List.append_nil]

/-- **Words that stand one space apart are the words of the text.** -/
theorem words_intercalate (h : ∀ w ∈ ws, IsWord w) : words ([' '].intercalate ws) = ws := by
  induction ws with
  | nil => rfl
  | cons w ws ih =>
    obtain ⟨hw, hws⟩ := List.forall_mem_cons.1 h
    cases ws with
    | nil => rw [List.intercalate_singleton, hw.words_eq]
    | cons v vs =>
      rw [List.intercalate_cons_cons, List.append_assoc, List.singleton_append,
        words_append_blank (by decide), hw.words_eq, ih hws]
      rfl

theorem IsWord.trim_eq (h : IsWord w) : trim w = w :=
  trim_eq_self_iff.2 ⟨fun c hc => h.solid c (List.mem_of_mem_head? hc),
    fun c hc => h.solid c (List.mem_of_getLast? hc)⟩

theorem trim_intercalate (h : ∀ w ∈ ws, IsWord w) :
    trim ([' '].intercalate ws) = [' '].intercalate ws := by
  induction ws with
  | nil => rfl
  | cons w ws ih =>
    obtain ⟨hw, hws⟩ := List.forall_mem_cons.1 h
    cases ws with
    | nil => rw [List.intercalate_singleton, hw.trim_eq]
    | cons v vs =>
      have hne : [' '].intercalate (v :: vs) ≠ [] := by
        intro hnil
        have hwords := words_intercalate hws
        rw [hnil] at hwords
        cases hwords
      rw [List.intercalate_cons_cons]
      exact trim_append_of_trimmed [' '] hw.trim_eq (ih hws) hw.nonempty hne

theorem words_trim (cs : List Char) : words (trim cs) = words cs := by
  have hstart (cs : List Char) : words (trimStart cs) = words cs := by
    rw [← words_blanks_append (fun _ => List.mem_takeWhile_imp) (trimStart cs), trimStart,
      List.takeWhile_append_dropWhile]
  obtain ⟨s, hs, e⟩ := exists_trimEnd_append (trimStart cs)
  rw [trim, ← words_append_blanks hs, ← e, hstart]

theorem solid_withoutBlanks (cs : List Char) : ∀ c ∈ withoutBlanks cs, isBlank c = false :=
  fun c hc => by simpa using (List.mem_filter.1 hc).2

theorem withoutBlanks_of_blank (hw : ∀ c ∈ w, isBlank c = true) : withoutBlanks w = [] :=
  List.filter_eq_nil_iff.2 fun c hc => by simp [hw c hc]

/-! ## Spaces -/

theorem trimEnd_append_cons (hm : isBlank m = false) (xs ys : List Char) :
    trimEnd (xs ++ m :: ys) = xs ++ m :: trimEnd ys := by
  induction xs with
  | nil => rw [List.nil_append, trimEnd_cons, if_neg (by simp [hm]), List.nil_append]
  | cons x xs ih => rw [List.cons_append, trimEnd_cons, ih, if_neg (by simp), List.cons_append]

/-- What follows a character that is no blank begins with a space, or with a word. -/
theorem exists_trimEnd_squeeze (hm : isBlank m = false) (ys : List Char) :
    ∃ t, (∀ c ∈ t, isBlank c = true) ∧ trimEnd (rewrite squeeze m ys) = t ++ spaced ys := by
  cases ys with
  | nil => exact ⟨[], nofun, rfl⟩
  | cons d ys =>
    rw [spaced_eq, rewrite, rewrite]
    by_cases hd : isBlank d = true
    · -- the first blank is kept behind `m`, but not at the start of a text
      have hspace : isBlank ' ' = true := by decide
      simp only [squeeze, hd, hm, hspace, if_true, Bool.false_eq_true, if_false,
        List.singleton_append, List.nil_append, trimEnd_cons, true_and]
      split
      next hnil => exact ⟨[], nofun, hnil.symm⟩
      next => exact ⟨[' '], by simpa using hspace, rfl⟩
    · have hs (b : Char) : squeeze b d = [d] := by simp [squeeze, hd]
      rw [hs, hs]
      exact ⟨[], nofun, rfl⟩

/-- A text is spaced on both sides of a character that is no blank, but for a space beside it. -/
theorem exists_spaced_append_cons (hm : isBlank m = false) (xs ys : List Char) :
    ∃ s t, (∀ c ∈ s, isBlank c = true) ∧ (∀ c ∈ t, isBlank c = true) ∧
      spaced (xs ++ m :: ys) = spaced xs ++ s ++ m :: (t ++ spaced ys) := by
  have hsqueeze (b : Char) : squeeze b m = [m] := by simp [squeeze, hm]
  obtain ⟨s, hs, hbefore⟩ := exists_trimEnd_append (rewrite squeeze ' ' xs)
  obtain ⟨t, ht, hbehind⟩ := exists_trimEnd_squeeze hm ys
  refine ⟨s, t, hs, ht, ?_⟩
  rw [spaced_eq, rewrite_append, rewrite, hsqueeze, List.singleton_append, trimEnd_append_cons hm,
    hbehind, spaced_eq xs, ← hbefore]

/-! ## Words in lower case -/

theorem lowercase_ne_nil (h : cs ≠ []) : lowercase cs ≠ [] := by
  obtain ⟨c, rest, rfl⟩ := List.exists_cons_of_ne_nil h
  rw [lowercase, lowercaseAfter]
  refine List.append_ne_nil_of_left_ne_nil ?_ _
  split
  · exact List.cons_ne_nil _ _
  · split <;> exact List.cons_ne_nil _ _

theorem isWord_lowercase (h : IsWord w) : IsWord (lowercase w) where
  nonempty := lowercase_ne_nil h.nonempty
  solid c hc := by
    by_contra hblank
    rw [Bool.not_eq_false] at hblank
    have hmem := (seam_of_isBlank hblank).mem_of_mem_lowercase hc
    rw [h.solid c hmem] at hblank
    cases hblank

theorem lowercase_intercalate (ws : List (List Char)) :
    lowercase ([' '].intercalate ws) = [' '].intercalate (ws.map lowercase) := by
  induction ws with
  | nil => rfl
  | cons w ws ih =>
    cases ws with
    | nil => simp
    | cons v vs =>
      simp only [List.map_cons] at ih ⊢
      rw [List.intercalate_cons_cons, List.intercalate_cons_cons, List.append_assoc,
        List.append_assoc, List.singleton_append, List.singleton_append,
        lowercase_append_seam (seam_of_isBlank (by decide)), ih]

theorem lowercase_append_blanks (hw : ∀ c ∈ w, isBlank c = true) (cs : List Char) :
    lowercase (cs ++ w) = lowercase cs ++ w := by
  induction w generalizing cs with
  | nil => rw [List.append_nil, List.append_nil]
  | cons b w ih =>
    obtain ⟨hb, hw⟩ := List.forall_mem_cons.1 hw
    have hnone := ih hw []
    rw [lowercase_append_seam (seam_of_isBlank hb)]
    exact congrArg (lowercase cs ++ b :: ·) hnone

theorem lowercase_blanks_append (hw : ∀ c ∈ w, isBlank c = true) (cs : List Char) :
    lowercase (w ++ cs) = w ++ lowercase cs := by
  induction w with
  | nil => rfl
  | cons b w ih =>
    obtain ⟨hb, hw⟩ := List.forall_mem_cons.1 hw
    have hcut := lowercase_append_seam (seam_of_isBlank hb) [] (w ++ cs)
    rw [ih hw] at hcut
    exact hcut

theorem words_map_toLower (cs : List Char) :
    words (cs.map Char.toLower) = (words cs).map (List.map Char.toLower) := by
  have hsplit : (cs.map Char.toLower).splitOnP isBlank =
      (cs.splitOnP isBlank).map (List.map Char.toLower) := by
    induction cs with
    | nil => rfl
    | cons c cs ih =>
      obtain ⟨v, vs, hv⟩ := List.exists_cons_of_ne_nil (List.splitOnP_ne_nil isBlank cs)
      rw [List.map_cons, List.splitOnP_cons_eq_if_modifyHead, List.splitOnP_cons_eq_if_modifyHead,
        isBlank_toLower, ih, hv]
      split <;> rfl
  rw [words, words, hsplit, List.filter_map]
  -- no word becomes empty, nor the other way round
  congr 2
  funext v
  cases v <;> rfl

end

end Text

/-! ## Folding -/

namespace Sql.Expression

section

variable {m : Char} {w xs ys cs : List Char}

theorem folded_eq (cs : List Char) :
    folded cs = [' '].intercalate ((words cs).map lowercase) :=
  lowercase_intercalate (words cs)

/-- **Folding sees the words only.** -/
theorem folded_congr (h : words xs = words ys) : folded xs = folded ys := by
  rw [folded_eq, folded_eq, h]

theorem isWord_of_mem_lowercase : ∀ w ∈ (words cs).map lowercase, IsWord w := by
  intro w hw
  obtain ⟨v, hv, rfl⟩ := List.mem_map.1 hw
  exact isWord_lowercase (isWord_of_mem_words hv)

theorem words_folded (cs : List Char) : words (folded cs) = (words cs).map lowercase := by
  rw [folded_eq, words_intercalate isWord_of_mem_lowercase]

/-- **A folded text stays as it is** when it is folded again. -/
theorem folded_folded (cs : List Char) : folded (folded cs) = folded cs := by
  have hlower : lowercase ∘ lowercase = lowercase := funext lowercase_lowercase
  rw [folded_eq, words_folded, List.map_map, hlower, ← folded_eq]

theorem trim_folded (cs : List Char) : trim (folded cs) = folded cs := by
  rw [folded_eq, trim_intercalate isWord_of_mem_lowercase]

theorem folded_map_toLower (cs : List Char) : folded (cs.map Char.toLower) = folded cs := by
  have hlower : lowercase ∘ List.map Char.toLower = lowercase := funext lowercase_map_toLower
  rw [folded_eq, words_map_toLower, List.map_map, hlower, ← folded_eq]

theorem folded_blanks_append (hw : ∀ c ∈ w, isBlank c = true) (cs : List Char) :
    folded (w ++ cs) = folded cs :=
  folded_congr (words_blanks_append hw cs)

theorem folded_append_blanks (hw : ∀ c ∈ w, isBlank c = true) (cs : List Char) :
    folded (cs ++ w) = folded cs :=
  folded_congr (words_append_blanks hw cs)

/-- **A text folds on both sides of a seam** that is no blank, but for blanks beside it. -/
theorem exists_folded_append_cons (hm : Seam m) (hblank : isBlank m = false)
    (xs ys : List Char) : ∃ s t, (∀ c ∈ s, isBlank c = true) ∧ (∀ c ∈ t, isBlank c = true) ∧
      folded (xs ++ m :: ys) = folded xs ++ s ++ m :: (t ++ folded ys) := by
  obtain ⟨s, t, hs, ht, hspaced⟩ := exists_spaced_append_cons hblank xs ys
  refine ⟨s, t, hs, ht, ?_⟩
  rw [folded, hspaced, lowercase_append_seam hm, lowercase_append_blanks hs,
    lowercase_blanks_append ht, folded, folded]

theorem mem_of_mem_folded (hm : Seam m) (hblank : isBlank m = false) (h : m ∈ folded cs) :
    m ∈ cs := by
  have hspaced : m ∈ withoutBlanks (spaced cs) :=
    List.mem_filter.2 ⟨hm.mem_of_mem_lowercase h, by simp [hblank]⟩
  rw [withoutBlanks_spaced] at hspaced
  exact List.mem_of_mem_filter hspaced

/-- A folded text without its blanks is one word, which folding leaves alone. -/
theorem folded_withoutBlanks_folded (cs : List Char) :
    folded (withoutBlanks (folded cs)) = withoutBlanks (folded cs) := by
  have hlower : ∀ c ∈ withoutBlanks (folded cs), Lowered c := fun c hc =>
    lowered_of_mem_lowercase (List.mem_of_mem_filter hc)
  by_cases hnil : withoutBlanks (folded cs) = []
  · rw [hnil]
    rfl
  · have hword : IsWord (withoutBlanks (folded cs)) := ⟨hnil, solid_withoutBlanks _⟩
    rw [folded, spaced, hword.words_eq, List.intercalate_singleton, lowercase_eq_self hlower]

/-- A seam stays between the words on its sides. -/
theorem withoutBlanks_folded_append_cons (hm : Seam m) (hblank : isBlank m = false)
    (xs ys : List Char) : withoutBlanks (folded (xs ++ m :: ys)) =
      withoutBlanks (folded xs) ++ m :: withoutBlanks (folded ys) := by
  obtain ⟨s, t, hs, ht, hfolded⟩ := exists_folded_append_cons hm hblank xs ys
  have hmark (cs : List Char) : withoutBlanks (m :: cs) = m :: withoutBlanks cs :=
    List.filter_cons_of_pos (by simp [hblank])
  rw [hfolded, withoutBlanks_append, withoutBlanks_append, hmark, withoutBlanks_append,
    withoutBlanks_of_blank hs, withoutBlanks_of_blank ht, List.append_nil, List.nil_append]

end

end Sql.Expression

end SchemaEvolution
