import Mathlib.Data.List.Basic
import Mathlib.Data.List.TakeWhile
import SchemaEvolution.Proofs.Trimming
import SchemaEvolution.Sql.Expression

/-!
# String literals in a text

A text holds string literals between single quotes; a quote inside a literal is written twice. A
scan of the text finds them in order (`quotations`), each with the gap between it and the one
before.

**Rewriting a text rewrites its literals** (`literals_rewrite`). Let each character become some
text, which may depend on the character before it, and let quotes and nothing else become quotes.
Then the literals of the new text are the rewritten literals, on one condition: between neighbours
something must be left (`Apart`). Where nothing is left, the closing quote of a literal and the
opening quote of the next one become a quote inside a literal.

The proof follows the scan of both texts. They stand at the same place, or the scan of the new text
is still behind a closing quote because everything that came after it was erased.

Without a condition, what stands around the literals does not matter: text without quotes on either
side (`literals_append_left`, `literals_append_right`), blanks (`literals_trim`) and parentheses
(`literals_withoutOuterParens`).
-/

namespace SchemaEvolution.Sql

open Text

/-! ## Finding literals -/

/-- A string literal in a text. -/
structure Quotation where
  /-- What stands between the literal and the one before it. -/
  gap : List Char
  content : List Char
  /-- Whether the literal ends before the text does. -/
  closed : Bool
deriving DecidableEq

/-- Where a scan for literals stands, and what it has read since the last literal. -/
inductive Place where
  | outside (gap : List Char)
  | inside (gap content : List Char)
  /-- Behind a quote, which ends the literal unless another quote follows. -/
  | behind (gap content : List Char)

/-- The literals in the rest of a text. -/
def scan : Place → List Char → List Quotation
  | .outside _, [] => []
  | .inside g l, [] => [⟨g, l, false⟩]
  | .behind g l, [] => [⟨g, l, true⟩]
  | .outside g, c :: cs =>
    if c = '\'' then scan (.inside g []) cs else scan (.outside (g ++ [c])) cs
  | .inside g l, c :: cs =>
    if c = '\'' then scan (.behind g l) cs else scan (.inside g (l ++ [c])) cs
  | .behind g l, c :: cs =>
    if c = '\'' then scan (.inside g (l ++ ['\''])) cs else ⟨g, l, true⟩ :: scan (.outside [c]) cs

/-- The literals in a text, and an opening quote without a closing one. -/
def quotations (cs : List Char) : List Quotation :=
  scan (.outside []) cs

/-- The contents of the literals that are closed. -/
def contents (qs : List Quotation) : List (List Char) :=
  (qs.filter (·.closed)).map (·.content)

/-- The contents of the string literals in a text. -/
def literals (cs : List Char) : List (List Char) :=
  contents (quotations cs)

@[simp] theorem contents_nil : contents [] = [] := rfl

@[simp] theorem contents_cons_closed (g l : List Char) (qs : List Quotation) :
    contents (⟨g, l, true⟩ :: qs) = l :: contents qs := rfl

@[simp] theorem contents_cons_open (g l : List Char) (qs : List Quotation) :
    contents (⟨g, l, false⟩ :: qs) = contents qs := rfl

section

variable {g g' l xs cs : List Char}

/-! ## Text without quotes -/

theorem scan_outside_append (h : '\'' ∉ xs) (g cs : List Char) :
    scan (.outside g) (xs ++ cs) = scan (.outside (g ++ xs)) cs := by
  induction xs generalizing g with
  | nil => simp
  | cons x xs ih =>
    rw [List.mem_cons, not_or] at h
    rw [List.cons_append, scan, if_neg (Ne.symm h.1), ih h.2, List.append_assoc]
    rfl

theorem scan_inside_append (h : '\'' ∉ xs) (g l cs : List Char) :
    scan (.inside g l) (xs ++ cs) = scan (.inside g (l ++ xs)) cs := by
  induction xs generalizing l with
  | nil => simp
  | cons x xs ih =>
    rw [List.mem_cons, not_or] at h
    rw [List.cons_append, scan, if_neg (Ne.symm h.1), ih h.2, List.append_assoc]
    rfl

theorem scan_behind_append (h : '\'' ∉ xs) (hne : xs ≠ []) (g l cs : List Char) :
    scan (.behind g l) (xs ++ cs) = ⟨g, l, true⟩ :: scan (.outside xs) cs := by
  cases xs with
  | nil => exact absurd rfl hne
  | cons x xs =>
    rw [List.mem_cons, not_or] at h
    rw [List.cons_append, scan, if_neg (Ne.symm h.1), scan_outside_append h.2]
    rfl

/-- The literals do not depend on the gap in front of them. -/
theorem contents_scan_gap (cs g g' : List Char) :
    contents (scan (.outside g) cs) = contents (scan (.outside g') cs) ∧
      (∀ l, contents (scan (.inside g l) cs) = contents (scan (.inside g' l) cs)) ∧
      ∀ l, contents (scan (.behind g l) cs) = contents (scan (.behind g' l) cs) := by
  induction cs generalizing g g' with
  | nil => exact ⟨rfl, fun _ => rfl, fun _ => rfl⟩
  | cons c cs ih =>
    refine ⟨?_, fun l => ?_, fun l => ?_⟩ <;> rw [scan, scan] <;> split
    · exact (ih g g').2.1 []
    · exact (ih _ _).1
    · exact (ih g g').2.2 l
    · exact (ih g g').2.1 _
    · exact (ih g g').2.1 _
    · rfl

theorem literals_append_left (h : '\'' ∉ xs) : literals (xs ++ cs) = literals cs := by
  rw [literals, quotations, scan_outside_append h]
  exact (contents_scan_gap cs _ _).1

theorem contents_scan_concat {c : Char} (hc : c ≠ '\'') (p : Place) (cs : List Char) :
    contents (scan p (cs ++ [c])) = contents (scan p cs) := by
  induction cs generalizing p with
  | nil => cases p <;> simp [scan, hc]
  | cons d cs ih =>
    cases p <;> rw [List.cons_append, scan, scan] <;> split
    all_goals first
      | exact ih _
      | rw [contents_cons_closed, contents_cons_closed, ih]

/-- Text without quotes at the end holds no literal and ends none. -/
theorem literals_append_right (h : '\'' ∉ xs) : literals (cs ++ xs) = literals cs := by
  induction xs generalizing cs with
  | nil => rw [List.append_nil]
  | cons x xs ih =>
    rw [List.mem_cons, not_or] at h
    rw [← List.singleton_append, ← List.append_assoc, ih h.2]
    exact contents_scan_concat (Ne.symm h.1) _ cs

theorem literals_eq_nil (h : '\'' ∉ cs) : literals cs = [] := by
  have hcs : literals ([] ++ cs) = literals [] := literals_append_right h
  exact hcs

end

/-! ## Blanks and parentheses around a text -/

theorem literals_trimStart (cs : List Char) : literals (trimStart cs) = literals cs := by
  have hblank : '\'' ∉ cs.takeWhile isBlank :=
    not_mem_of_blank (by decide) fun _ => List.mem_takeWhile_imp
  have h : literals (cs.takeWhile isBlank ++ trimStart cs) = literals (trimStart cs) :=
    literals_append_left hblank
  rw [← h, trimStart, List.takeWhile_append_dropWhile]

theorem literals_trimEnd (cs : List Char) : literals (trimEnd cs) = literals cs := by
  obtain ⟨w, hw, hcs⟩ := exists_trimEnd_append cs
  have h : literals (trimEnd cs ++ w) = literals (trimEnd cs) :=
    literals_append_right (not_mem_of_blank (by decide) hw)
  rw [← h, ← hcs]

/-- **Blanks around a text do not matter** for its literals. -/
theorem literals_trim (cs : List Char) : literals (trim cs) = literals cs := by
  rw [trim, literals_trimEnd, literals_trimStart]

theorem eq_of_unwrap? {cs inner : List Char} (h : Expression.unwrap? cs = some inner) :
    cs = ['('] ++ (inner ++ [')']) := by
  unfold Expression.unwrap? at h
  split at h
  next r =>
    split at h
    next hr =>
      cases h
      rw [List.dropLast_append_getLast? _ hr.1]
      rfl
    next => cases h
  next => cases h

/-- **Parentheses around a text do not matter** for its literals. -/
theorem literals_withoutOuterParens (cs : List Char) :
    literals (Expression.withoutOuterParens cs) = literals cs := by
  induction cs using Expression.withoutOuterParens.induct with
  | case1 cs inner h ih =>
    rw [Expression.withoutOuterParens_of_some h, ih, ← literals_trim cs, eq_of_unwrap? h,
      literals_append_left (by decide), literals_append_right (by decide)]
  | case2 cs h => rw [Expression.withoutOuterParens_of_none h, literals_trim]

/-! ## Rewriting -/

/-- A text in which every character becomes another text, which may depend on the character before
it. -/
def rewrite (f : Char → Char → List Char) (before : Char) : List Char → List Char
  | [] => []
  | c :: cs => f before c ++ rewrite f c cs

/-- Quotes become quotes, and no other character does. -/
structure KeepsQuotes (f : Char → Char → List Char) : Prop where
  quote : ∀ b, f b '\'' = ['\'']
  other : ∀ b c, c ≠ '\'' → '\'' ∉ f b c

/-- Between neighbouring literals something is left when a text is rewritten. -/
def Apart (f : Char → Char → List Char) (cs : List Char) : Prop :=
  ∀ q ∈ (quotations cs).tail, rewrite f '\'' q.gap ≠ []

instance (f : Char → Char → List Char) (cs : List Char) : Decidable (Apart f cs) :=
  inferInstanceAs (Decidable (∀ q ∈ (quotations cs).tail, rewrite f '\'' q.gap ≠ []))

/-- Where the scan of a rewritten text stands, and the literals that it has still to find. If all
that came behind a literal was erased, the scan is still behind it. -/
inductive Follows (f : Char → Char → List Char) : Place → Char → Place → List (List Char) → Prop
  | outside (g g' : List Char) (b : Char) : Follows f (.outside g) b (.outside g') []
  | inside (g g' l : List Char) :
      Follows f (.inside g l) (l.getLastD '\'') (.inside g' (rewrite f '\'' l)) []
  | behind (g g' l : List Char) : Follows f (.behind g l) '\'' (.behind g' (rewrite f '\'' l)) []
  | erased (g g' l : List Char) (h : rewrite f '\'' g = []) :
      Follows f (.outside g) (g.getLastD '\'') (.behind g' l) [l]

section

variable {f : Char → Char → List Char} {b : Char} {g g' l l' cs : List Char}

theorem rewrite_eq_flatMap (f : Char → List Char) (b : Char) (cs : List Char) :
    rewrite (fun _ => f) b cs = cs.flatMap f := by
  induction cs generalizing b with
  | nil => rfl
  | cons c cs ih => rw [rewrite, ih, List.flatMap_cons]

theorem rewrite_append (f : Char → Char → List Char) (b : Char) (cs ds : List Char) :
    rewrite f b (cs ++ ds) = rewrite f b cs ++ rewrite f (cs.getLastD b) ds := by
  induction cs generalizing b with
  | nil => rfl
  | cons c cs ih =>
    rw [List.cons_append, rewrite, rewrite, ih, List.append_assoc, List.getLastD_cons]

theorem rewrite_concat (f : Char → Char → List Char) (b c : Char) (cs : List Char) :
    rewrite f b (cs ++ [c]) = rewrite f b cs ++ f (cs.getLastD b) c := by
  rw [rewrite_append, rewrite, rewrite, List.append_nil]

/-- The first literal that is found keeps the gap that was read. -/
theorem exists_scan_inside (cs : List Char) :
    (∀ g l, ∃ l' e qs, scan (.inside g l) cs = ⟨g, l', e⟩ :: qs) ∧
      ∀ g l, ∃ l' e qs, scan (.behind g l) cs = ⟨g, l', e⟩ :: qs := by
  induction cs with
  | nil => exact ⟨fun g l => ⟨l, false, [], rfl⟩, fun g l => ⟨l, true, [], rfl⟩⟩
  | cons c cs ih =>
    refine ⟨fun g l => ?_, fun g l => ?_⟩ <;> rw [scan] <;> split
    · exact ih.2 g l
    · exact ih.1 g _
    · exact ih.1 g _
    · exact ⟨l, true, _, rfl⟩

theorem Follows.inside_concat (g g' l : List Char) (c : Char) :
    Follows f (.inside g (l ++ [c])) c
      (.inside g' (rewrite f '\'' l ++ f (l.getLastD '\'') c)) [] := by
  rw [← rewrite_concat]
  simpa using Follows.inside (f := f) g g' (l ++ [c])

theorem Follows.erased_concat (g' l : List Char) {c : Char} (h : rewrite f '\'' g = [])
    (hc : f (g.getLastD '\'') c = []) : Follows f (.outside (g ++ [c])) c (.behind g' l) [l] := by
  have hg : rewrite f '\'' (g ++ [c]) = [] := by rw [rewrite_concat, h, hc, List.append_nil]
  simpa using Follows.erased _ g' l hg

/-- What the two scans find in the rest of the text. A gap is asked for before each literal but the
first, and before the first one if another is still to be found. -/
theorem contents_scan_rewrite (h : KeepsQuotes f) {p p' : Place} {owed : List (List Char)}
    (hp : Follows f p b p' owed) (htail : ∀ q ∈ (scan p cs).tail, rewrite f '\'' q.gap ≠ [])
    (hhead : owed ≠ [] → ∀ q ∈ (scan p cs).head?, rewrite f '\'' q.gap ≠ []) :
    contents (scan p' (rewrite f b cs)) = owed ++ (contents (scan p cs)).map (rewrite f '\'') := by
  induction cs generalizing p b p' owed with
  | nil => cases hp <;> simp [rewrite, scan]
  | cons c cs ih =>
    rw [rewrite]
    by_cases hc : c = '\''
    · subst hc
      rw [h.quote, List.singleton_append]
      cases hp with
      | outside g g' => exact ih (.inside g g' []) htail nofun
      | inside g g' l => exact ih (.behind g g' l) htail nofun
      | behind g g' l =>
        have hnext := Follows.inside_concat (f := f) g g' l '\''
        rw [h.quote] at hnext
        exact ih hnext htail nofun
      | erased g g' l herased =>
        -- what was erased is the gap before the literal that begins here
        obtain ⟨l, e, qs, hq⟩ := (exists_scan_inside cs).1 g []
        exact absurd herased (hhead (by simp) ⟨g, l, e⟩ (by rw [scan, if_pos rfl, hq]; rfl))
    · have hquote := h.other b c hc
      cases hp with
      | outside g g' =>
        rw [scan, if_neg hc] at htail ⊢
        rw [scan_outside_append hquote]
        exact ih (.outside _ _ _) htail nofun
      | inside g g' l =>
        rw [scan, if_neg hc] at htail ⊢
        rw [scan_inside_append hquote]
        exact ih (.inside_concat g g' l c) htail nofun
      | behind g g' l =>
        rw [scan, if_neg hc] at htail ⊢
        have htail' (q : Quotation) (hq : q ∈ (scan (.outside [c]) cs).tail) :
            rewrite f '\'' q.gap ≠ [] := htail q (List.mem_of_mem_tail hq)
        by_cases he : f '\'' c = []
        · rw [he, List.nil_append]
          exact ih (.erased_concat (g := []) _ _ rfl he) htail' fun _ q hq =>
            htail q (List.mem_of_mem_head? hq)
        · rw [scan_behind_append hquote he, contents_cons_closed, contents_cons_closed,
            ih (.outside _ _ _) htail' nofun]
          rfl
      | erased g g' l herased =>
        rw [scan, if_neg hc] at htail hhead
        rw [scan, if_neg hc]
        by_cases he : f (g.getLastD '\'') c = []
        · rw [he, List.nil_append]
          exact ih (.erased_concat _ _ herased he) htail hhead
        · rw [scan_behind_append hquote he, contents_cons_closed, ih (.outside _ _ _) htail nofun]
          rfl

/-- What a scan has read since the last literal. -/
def Place.gap : Place → List Char
  | .outside g => g
  | .inside g _ => g
  | .behind g _ => g

/-- Something stands between any two literals, or they would be one. -/
theorem gap_ne_nil (p : Place) (cs : List Char) :
    (∀ q ∈ (scan p cs).tail, q.gap ≠ []) ∧ (p.gap ≠ [] → ∀ q ∈ scan p cs, q.gap ≠ []) := by
  induction cs generalizing p with
  | nil => cases p <;> simp [scan, Place.gap]
  | cons c cs ih =>
    cases p with
    | outside g =>
      rw [scan]
      split
      · exact ih (.inside g [])
      · exact ⟨(ih _).1, fun _ => (ih (.outside (g ++ [c]))).2 (by simp [Place.gap])⟩
    | inside g l =>
      rw [scan]
      split
      · exact ih (.behind g l)
      · exact ih (.inside g _)
    | behind g l =>
      rw [scan]
      split
      · exact ih (.inside g _)
      · have hrest := (ih (.outside [c])).2 (by simp [Place.gap])
        exact ⟨hrest, fun hg => List.forall_mem_cons.2 ⟨hg, hrest⟩⟩

/-- A rewriting that erases nothing behind a quote leaves something between any two literals. -/
theorem apart_of_ne_nil (h : ∀ c, f '\'' c ≠ []) (cs : List Char) : Apart f cs := by
  intro q hq
  obtain ⟨c, g, hg⟩ := List.exists_cons_of_ne_nil ((gap_ne_nil (.outside []) cs).1 q hq)
  rw [hg, rewrite]
  exact List.append_ne_nil_of_left_ne_nil (h c) _

/-- **Rewriting a text rewrites its literals**, if something is left between neighbours. -/
theorem literals_rewrite (h : KeepsQuotes f) (ha : Apart f cs) (b : Char) :
    literals (rewrite f b cs) = (literals cs).map (rewrite f '\'') :=
  contents_scan_rewrite h (.outside [] [] b) ha nofun

end

/-! ## Erasing characters -/

/-- The rewriting that erases some characters. -/
def erasing (p : Char → Bool) : Char → Char → List Char :=
  fun _ c => if p c then [] else [c]

theorem rewrite_erasing (p : Char → Bool) (b : Char) (cs : List Char) :
    rewrite (erasing p) b cs = cs.filter fun c => !p c := by
  induction cs generalizing b with
  | nil => rfl
  | cons c cs ih => by_cases hc : p c = true <;> simp [rewrite, erasing, ih, hc]

theorem keepsQuotes_erasing {p : Char → Bool} (h : p '\'' = false) : KeepsQuotes (erasing p) where
  quote _ := by simp [erasing, h]
  other _ c hc := by
    unfold erasing
    split
    · exact List.not_mem_nil
    · simpa using Ne.symm hc

/-- **Erasing characters erases them from the literals**, if something is left between
neighbours. -/
theorem literals_filter {p : Char → Bool} (h : p '\'' = false) {cs : List Char}
    (ha : Apart (erasing p) cs) : literals (cs.filter fun c => !p c) =
      (literals cs).map fun l => l.filter fun c => !p c := by
  have hp (b : Char) : rewrite (erasing p) b = fun cs => cs.filter fun c => !p c :=
    funext (rewrite_erasing p b)
  simpa only [hp] using literals_rewrite (keepsQuotes_erasing h) ha ' '

end SchemaEvolution.Sql
