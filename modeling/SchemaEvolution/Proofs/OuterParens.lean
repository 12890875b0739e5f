import Mathlib.Algebra.Group.Nat.Even
import Mathlib.Logic.Function.Iterate
import SchemaEvolution.Proofs.StringLiterals
import SchemaEvolution.Proofs.WrittenDefaults

/-!
# Redundant parentheses

Parentheses around the whole of an expression have no meaning. Whether they stand around the whole
is decided by a scan; what is meant is `Balanced`: outside of quotes no parenthesis is closed that
was not opened, all are closed at the end, and so are the quotes.

**Theorem (`Comparison.parens_never_matter`).** Parentheses around a balanced expression, with any
blanks inside of them, do not change what is left when parentheses are taken off. That takes
finitely many rounds, leaves a part of the text with no such parentheses, and a second time
nothing comes off. So expressions and defaults of no known kind compare as they did, in both
modes and on either side, however often they are wrapped.

The scan starts behind the opening parenthesis, at depth one. In a balanced text it never comes
back to depth zero, and behind the text it is where it was before (`Expression.closesAtEnd_append`);
so the last parenthesis is the one that closes the first.
-/

namespace SchemaEvolution

open Text Sql

/-! ## Balanced expressions -/

namespace Sql.Expression

/-- What stands outside of quotes in the rest of a text, of which the scan is inside quotes or
not. -/
def unquoted (quoted : Bool) : List Char → List Char
  | [] => []
  | c :: cs =>
    if c = '\'' then unquoted (!quoted) cs
    else if quoted then unquoted quoted cs
    else c :: unquoted quoted cs

/-- An expression whose parentheses, outside of quotes, are closed after they are opened, and whose
quotes are closed. -/
structure Balanced (cs : List Char) : Prop where
  opened : ∀ n, ((unquoted false cs).take n).count ')' ≤ ((unquoted false cs).take n).count '('
  closed : (unquoted false cs).count ')' = (unquoted false cs).count '('
  quotes : Even (cs.count '\'')

instance (cs : List Char) : Decidable (Balanced cs) :=
  decidable_of_iff
    ((∀ n < (unquoted false cs).length,
        ((unquoted false cs).take n).count ')' ≤ ((unquoted false cs).take n).count '(') ∧
      (unquoted false cs).count ')' = (unquoted false cs).count '(' ∧ Even (cs.count '\''))
    ⟨fun ⟨hopened, hclosed, hquotes⟩ =>
        ⟨fun n => (Nat.lt_or_ge n (unquoted false cs).length).elim (hopened n) fun h => by
          rw [List.take_of_length_le h]
          exact hclosed.le, hclosed, hquotes⟩,
      fun h => ⟨fun n _ => h.opened n, h.closed, h.quotes⟩⟩

/-- Whether a scan is inside quotes behind a text. -/
def quotedAfter (quoted : Bool) (cs : List Char) : Bool :=
  if Even (cs.count '\'') then quoted else !quoted

section

variable {cs ds w w₁ w₂ e : List Char} {quoted : Bool}

theorem quotedAfter_quote (quoted : Bool) (cs : List Char) :
    quotedAfter quoted ('\'' :: cs) = quotedAfter (!quoted) cs := by
  by_cases h : Even (cs.count '\'') <;> simp [quotedAfter, Nat.even_add_one, h]

theorem quotedAfter_cons {c : Char} (hc : c ≠ '\'') (quoted : Bool) (cs : List Char) :
    quotedAfter quoted (c :: cs) = quotedAfter quoted cs := by
  rw [quotedAfter, quotedAfter, List.count_cons_of_ne hc]

theorem unquoted_append (quoted : Bool) (cs ds : List Char) :
    unquoted quoted (cs ++ ds) = unquoted quoted cs ++ unquoted (quotedAfter quoted cs) ds := by
  induction cs generalizing quoted with
  | nil => simp [unquoted, quotedAfter]
  | cons c cs ih =>
    by_cases hc : c = '\''
    · subst hc
      simp [unquoted, quotedAfter_quote, ih]
    · cases quoted <;> simp [unquoted, hc, quotedAfter_cons hc, ih]

theorem count_cons_eq (a c : Char) (cs : List Char) :
    (c :: cs).count a = [c].count a + cs.count a := by
  rw [← List.count_append, List.singleton_append]

/-- Outside of quotes a character leads a scan to the depth that is the old one with the parentheses
opened and without those closed. -/
theorem closesAtEnd_cons {c : Char} (hc : c ≠ '\'') {depth next : ℕ} (cs : List Char)
    (h : depth + [c].count '(' = next + [c].count ')') :
    closesAtEnd (depth + 1) false (c :: cs) = closesAtEnd (next + 1) false cs := by
  by_cases hleft : c = '('
  · subst hleft
    obtain rfl : depth + 1 = next := by simpa using h
    simp [closesAtEnd]
  by_cases hright : c = ')'
  · subst hright
    obtain rfl : depth = next + 1 := by simpa using h
    simp [closesAtEnd]
  · obtain rfl : depth = next := by simpa [hleft, hright] using h
    simp [closesAtEnd, hc, hleft, hright]

/-- **A scan comes out of a text as deep as the text leaves it.** The depth does not fall below
that of the beginning by more than `slack`, so the outermost level stays open. -/
theorem closesAtEnd_append {slack left : ℕ} (rest : List Char)
    (hopen : ∀ n, ((unquoted quoted cs).take n).count ')' ≤
      ((unquoted quoted cs).take n).count '(' + slack)
    (hleft : (unquoted quoted cs).count '(' + slack = (unquoted quoted cs).count ')' + left) :
    closesAtEnd (slack + 1) quoted (cs ++ rest) =
      closesAtEnd (left + 1) (quotedAfter quoted cs) rest := by
  induction cs generalizing slack quoted with
  | nil =>
    obtain rfl : slack = left := by simpa [unquoted] using hleft
    simp [quotedAfter]
  | cons c cs ih =>
    by_cases hquote : c = '\''
    · subst hquote
      rw [quotedAfter_quote]
      simpa [closesAtEnd] using ih (by simpa [unquoted] using hopen)
        (by simpa [unquoted] using hleft)
    rw [quotedAfter_cons hquote]
    cases quoted with
    | true =>
      simpa [closesAtEnd, hquote] using ih (by simpa [unquoted, hquote] using hopen)
        (by simpa [unquoted, hquote] using hleft)
    | false =>
      have hunquoted : unquoted false (c :: cs) = c :: unquoted false cs := by
        simp [unquoted, hquote]
      rw [hunquoted] at hopen hleft
      have hfirst : [c].count ')' ≤ [c].count '(' + slack := hopen 1
      obtain ⟨next, hnext⟩ : ∃ next, slack + [c].count '(' = next + [c].count ')' :=
        Nat.exists_eq_add_of_le' (by omega)
      rw [List.cons_append, closesAtEnd_cons hquote _ hnext]
      -- The counts for the rest of the text are those of one character more.
      refine ih (fun n => ?_) ?_
      · have hmore := hopen (n + 1)
        rw [List.take_succ_cons, count_cons_eq ')' c, count_cons_eq '(' c] at hmore
        omega
      · rw [count_cons_eq '(' c, count_cons_eq ')' c] at hleft
        omega

theorem Balanced.quotedAfter_eq (h : Balanced cs) : quotedAfter false cs = false :=
  if_pos h.quotes

/-- A scan comes out of a balanced expression as it went in. -/
theorem Balanced.closesAtEnd_append (h : Balanced cs) (rest : List Char) :
    closesAtEnd 1 false (cs ++ rest) = closesAtEnd 1 false rest := by
  have hscan : closesAtEnd 1 false (cs ++ rest) = closesAtEnd 1 (quotedAfter false cs) rest :=
    Expression.closesAtEnd_append rest h.opened h.closed.symm
  rwa [h.quotedAfter_eq] at hscan

/-! ## Balanced expressions in blanks and parentheses -/

theorem ne_of_isBlank {c : Char} (h : isBlank c = true) : c ≠ '\'' ∧ c ≠ '(' ∧ c ≠ ')' := by
  refine ⟨?_, ?_, ?_⟩ <;> rintro rfl <;> revert h <;> decide

theorem unquoted_blank (h : ∀ c ∈ w, isBlank c = true) : unquoted false w = w := by
  induction w with
  | nil => rfl
  | cons c w ih =>
    rw [List.forall_mem_cons] at h
    simp [unquoted, (ne_of_isBlank h.1).1, ih h.2]

theorem count_blank {c : Char} (hc : isBlank c = false) (h : ∀ c ∈ w, isBlank c = true) :
    w.count c = 0 :=
  List.count_eq_zero.2 (not_mem_of_blank hc h)

theorem quotedAfter_blank (h : ∀ c ∈ w, isBlank c = true) : quotedAfter false w = false :=
  if_pos (by simp [count_blank (by decide : isBlank '\'' = false) h])

theorem unquoted_wrapped (h : Balanced e) (h₁ : ∀ c ∈ w₁, isBlank c = true)
    (h₂ : ∀ c ∈ w₂, isBlank c = true) : unquoted false (wrapped (w₁ ++ e ++ w₂)) =
      '(' :: (w₁ ++ (unquoted false e ++ (w₂ ++ [')']))) := by
  have hinner : unquoted false (w₁ ++ (e ++ (w₂ ++ [')']))) =
      w₁ ++ (unquoted false e ++ (w₂ ++ [')'])) := by
    rw [unquoted_append, quotedAfter_blank h₁, unquoted_append, h.quotedAfter_eq, unquoted_append,
      quotedAfter_blank h₂, unquoted_blank h₁, unquoted_blank h₂]
    rfl
  simp [wrapped, unquoted, hinner]

theorem Balanced.wrap (h : Balanced e) (h₁ : ∀ c ∈ w₁, isBlank c = true)
    (h₂ : ∀ c ∈ w₂, isBlank c = true) : Balanced (wrapped (w₁ ++ e ++ w₂)) := by
  have hnone {w : List Char} (hw : ∀ c ∈ w, isBlank c = true) (n : ℕ) :
      (w.take n).count ')' = 0 ∧ (w.take n).count '(' = 0 :=
    have htake : ∀ c ∈ w.take n, isBlank c = true := fun c hc => hw c (List.mem_of_mem_take hc)
    ⟨count_blank (by decide) htake, count_blank (by decide) htake⟩
  have hunquoted := unquoted_wrapped h h₁ h₂
  refine ⟨fun n => ?_, ?_, ?_⟩
  · rw [hunquoted]
    cases n with
    | zero => simp
    | succ n =>
      have hclose (k : ℕ) : ([')'].take k).count ')' ≤ 1 :=
        List.count_le_length.trans (List.length_take_le' k [')'])
      have hinner := h.opened (n - w₁.length)
      have hlast := hclose (n - w₁.length - (unquoted false e).length - w₂.length)
      simp only [List.take_succ_cons, List.take_append, List.count_cons, List.count_append,
        (hnone h₁ n).1, (hnone h₁ n).2, (hnone h₂ _).1, (hnone h₂ _).2]
      simp
      omega
  · rw [hunquoted]
    have hw₁ := hnone h₁ w₁.length
    have hw₂ := hnone h₂ w₂.length
    rw [List.take_length] at hw₁ hw₂
    simp [hw₁, hw₂, h.closed]
  · have hquote : isBlank '\'' = false := by decide
    simpa [wrapped, count_blank hquote h₁, count_blank hquote h₂] using h.quotes

/-! ## Taking parentheses off -/

theorem closesAtEnd_blank (depth : ℕ) (h : ∀ c ∈ w, isBlank c = true) (rest : List Char) :
    closesAtEnd depth false (w ++ rest) = closesAtEnd depth false rest := by
  induction w with
  | nil => rfl
  | cons c w ih =>
    rw [List.forall_mem_cons] at h
    simpa [closesAtEnd, ne_of_isBlank h.1] using ih h.2

/-- The parentheses around a balanced expression stand around the whole. -/
theorem unwrap?_wrapped (h : Balanced e) (h₁ : ∀ c ∈ w₁, isBlank c = true)
    (h₂ : ∀ c ∈ w₂, isBlank c = true) :
    unwrap? (wrapped (w₁ ++ e ++ w₂)) = some (w₁ ++ e ++ w₂) := by
  have hscan : closesAtEnd 0 false (wrapped (w₁ ++ e ++ w₂)) = true := by
    have hopen : closesAtEnd 0 false (wrapped (w₁ ++ e ++ w₂)) =
        closesAtEnd 1 false (w₁ ++ (e ++ (w₂ ++ [')']))) := by
      simp [wrapped, closesAtEnd]
    rw [hopen, closesAtEnd_blank 1 h₁, h.closesAtEnd_append, closesAtEnd_blank 1 h₂]
    decide
  have hlast : (w₁ ++ e ++ w₂ ++ [')']).getLast? = some ')' := List.getLast?_concat
  rw [wrapped, List.cons_append] at hscan ⊢
  rw [unwrap?, if_pos ⟨hlast, hscan⟩, List.dropLast_concat]

theorem withoutOuterParens_congr (h : trim cs = trim ds) :
    withoutOuterParens cs = withoutOuterParens ds := by
  cases hinner : unwrap? (trim cs) with
  | some inner =>
    have hds : unwrap? (trim ds) = some inner := h ▸ hinner
    rw [withoutOuterParens_of_some hinner, withoutOuterParens_of_some hds]
  | none =>
    have hds : unwrap? (trim ds) = none := h ▸ hinner
    rw [withoutOuterParens_of_none hinner, withoutOuterParens_of_none hds, h]

/-- **Parentheses around a balanced expression are taken off.** -/
theorem withoutOuterParens_wrap (h : Balanced e) (h₁ : ∀ c ∈ w₁, isBlank c = true)
    (h₂ : ∀ c ∈ w₂, isBlank c = true) :
    withoutOuterParens (wrapped (w₁ ++ e ++ w₂)) = withoutOuterParens e := by
  rw [withoutOuterParens_of_some (by rw [trim_wrapped, unwrap?_wrapped h h₁ h₂])]
  refine withoutOuterParens_congr ?_
  rw [trim_append_blank h₂, trim_blank_append h₁]

/-- One round: the parentheses around the whole, and the blanks inside of them. -/
def peel (cs : List Char) : List Char :=
  (unwrap? cs).elim cs trim

theorem peel_of_some {inner : List Char} (h : unwrap? cs = some inner) : peel cs = trim inner := by
  rw [peel, h, Option.elim_some]

theorem exists_rounds (cs : List Char) : ∃ n ≤ cs.length,
    peel^[n] (trim cs) = withoutOuterParens cs ∧ unwrap? (withoutOuterParens cs) = none ∧
      trim (withoutOuterParens cs) = withoutOuterParens cs ∧ withoutOuterParens cs <:+: cs := by
  induction cs using withoutOuterParens.induct with
  | case1 cs inner h ih =>
    obtain ⟨n, hn, hrounds, hend, htrim, hpart⟩ := ih
    have hlength : inner.length < cs.length :=
      (length_of_unwrap? h).trans_le (length_trim_le cs)
    have hinner : inner <:+: cs := by
      refine List.IsInfix.trans ⟨['('], [')'], ?_⟩ (trim_infix_self cs)
      rw [eq_of_unwrap? h, List.append_assoc]
    rw [withoutOuterParens_of_some h]
    refine ⟨n + 1, by omega, ?_, hend, htrim, hpart.trans hinner⟩
    rw [Function.iterate_succ_apply, peel_of_some h, hrounds]
  | case2 cs h =>
    rw [withoutOuterParens_of_none h]
    exact ⟨0, Nat.zero_le _, rfl, h, trim_trim cs, trim_infix_self cs⟩

/-- **Nothing comes off a second time.** -/
theorem withoutOuterParens_withoutOuterParens (cs : List Char) :
    withoutOuterParens (withoutOuterParens cs) = withoutOuterParens cs := by
  obtain ⟨-, -, -, hend, htrim, -⟩ := exists_rounds cs
  rw [withoutOuterParens_of_none (htrim.symm ▸ hend), htrim]

/-- A text in which an expression stands in parentheses, any number of times and with any blanks
inside of them. -/
inductive Wraps (e : List Char) : List Char → Prop
  | refl : Wraps e e
  | wrap {cs w₁ w₂ : List Char} (he : Balanced e) (h : Wraps e cs)
      (h₁ : ∀ c ∈ w₁, isBlank c = true) (h₂ : ∀ c ∈ w₂, isBlank c = true) :
      Wraps e (wrapped (w₁ ++ cs ++ w₂))

theorem Wraps.balanced (h : Wraps e cs) (he : Balanced e) : Balanced cs := by
  induction h with
  | refl => exact he
  | wrap _ _ h₁ h₂ ih => exact ih.wrap h₁ h₂

theorem Wraps.withoutOuterParens_eq (h : Wraps e cs) :
    withoutOuterParens cs = withoutOuterParens e := by
  induction h with
  | refl => rfl
  | wrap he h h₁ h₂ ih => rw [withoutOuterParens_wrap (h.balanced he) h₁ h₂, ih]

end

end Sql.Expression

/-! ## Comparing -/

namespace Comparison

open Expression

theorem bareExpression_wraps {e cs : List Char} (h : Wraps e cs) :
    bareExpression cs = bareExpression e := by
  have hkept {w : List Char} (hw : ∀ c ∈ w, isBlank c = true) :
      w.filter (fun c => !(isBlank c || c == '\x60' || c == '(' || c == ')')) = [] :=
    List.filter_eq_nil_iff.2 fun c hc => by simp [hw c hc]
  induction h with
  | refl => rfl
  | wrap he h h₁ h₂ ih =>
    rw [← ih, bareExpression, bareExpression, wrapped, List.cons_append,
      List.filter_cons_of_neg (by simp), List.filter_append, List.filter_append,
      List.filter_append, hkept h₁, hkept h₂, List.filter_cons_of_neg (by simp)]
    simp

/-- Of a default of no known kind only the text without parentheses around it counts. -/
theorem sameDefault_congr {a b : DefaultValue} (ha : a.kind = .unknown) (hb : b.kind = .unknown)
    (h : withoutOuterParens a.value.toList = withoutOuterParens b.value.toList) (mode : Mode)
    (type : String) (d : DefaultValue) :
    sameDefault mode type a d = sameDefault mode type b d ∧
      sameDefault mode type d a = sameDefault mode type d b := by
  have hclock : Clock.canonical a.value.toList = Clock.canonical b.value.toList := by
    rw [Clock.canonical, Clock.canonical, h]
  have htext : literalText a = literalText b := by simp [literalText, ha, hb, h]
  have hleft : sameAsWritten a d = sameAsWritten b d := by
    simp [sameAsWritten, ha, hb, hclock]
  have hright : sameAsWritten d a = sameAsWritten d b := by
    unfold sameAsWritten
    rw [ha, hb, hclock]
    cases d.kind <;> rfl
  constructor
  · rw [sameDefault, sameDefault, hleft, htext, ha, hb]
  · rw [sameDefault, sameDefault, hright, htext, ha, hb]

/-- **Redundant parentheses never matter.** Around a balanced expression they come off, in
finitely many rounds and once and for all, and what compares expressions and defaults of no known
kind does not see them. -/
theorem parens_never_matter :
    (∀ {e w₁ w₂ : List Char}, Balanced e → (∀ c ∈ w₁, isBlank c = true) →
      (∀ c ∈ w₂, isBlank c = true) →
      withoutOuterParens (wrapped (w₁ ++ e ++ w₂)) = withoutOuterParens e) ∧
    (∀ cs : List Char,
      withoutOuterParens (withoutOuterParens cs) = withoutOuterParens cs ∧
      withoutOuterParens cs <:+: cs ∧
      ∃ n ≤ cs.length, peel^[n] (trim cs) = withoutOuterParens cs ∧
        unwrap? (withoutOuterParens cs) = none) ∧
    (∀ (mode : Mode) {a a' b b' : String}, Wraps a.toList a'.toList → Wraps b.toList b'.toList →
      sameExpression mode a' b' = sameExpression mode a b) ∧
    ∀ (mode : Mode) (type : String) {a a' : String} (d : DefaultValue),
      Wraps a.toList a'.toList →
      sameDefault mode type ⟨a', .unknown⟩ d = sameDefault mode type ⟨a, .unknown⟩ d ∧
        sameDefault mode type d ⟨a', .unknown⟩ = sameDefault mode type d ⟨a, .unknown⟩ := by
  refine ⟨withoutOuterParens_wrap, fun cs => ?_, fun mode {_ _ _ _} ha hb => ?_,
    fun mode type {_ _} d ha => ?_⟩
  · obtain ⟨n, hn, hrounds, hend, -, hpart⟩ := exists_rounds cs
    exact ⟨withoutOuterParens_withoutOuterParens cs, hpart, n, hn, hrounds, hend⟩
  · rw [sameExpression, sameExpression, ha.withoutOuterParens_eq, hb.withoutOuterParens_eq,
      bareExpression_wraps ha, bareExpression_wraps hb]
  · exact sameDefault_congr rfl rfl ha.withoutOuterParens_eq mode type d

/-- Groups side by side stay, and so does a parenthesis in quotes; what stands around them comes
off, with blanks of any script. -/
theorem parens_never_matter_of_groups :
    let a := "(a) || (')')"
    let b := "( (\n(a) || (')'))\u3000)"
    Balanced a.toList ∧ Wraps a.toList b.toList ∧
    withoutOuterParens (wrapped ("\n".toList ++ a.toList ++ [])) = a.toList ∧
    sameExpression .default b "(a)" = sameExpression .default a "(a)" ∧
    sameDefault .default "text" ⟨b, .unknown⟩ ⟨a, .unknown⟩ = true ∧
    sameDefault .push "text" ⟨"(a) || (')')", .string⟩ ⟨b, .unknown⟩ = true := by
  intro a b
  have he : Balanced a.toList := by decide
  have hfeed : ∀ c ∈ "\n".toList, isBlank c = true :=
    List.all_eq_true.1 (by decide)
  have hspace : ∀ c ∈ " ".toList, isBlank c = true :=
    List.all_eq_true.1 (by decide)
  have hwide : ∀ c ∈ "\u3000".toList, isBlank c = true :=
    List.all_eq_true.1 (by decide)
  have hwraps : Wraps a.toList b.toList := by
    have hb : b.toList = wrapped (" ".toList ++ wrapped ("\n".toList ++ a.toList ++ []) ++
      "\u3000".toList) := by decide
    rw [hb]
    exact .wrap he (.wrap he .refl hfeed (by simp)) hspace hwide
  obtain ⟨hoff, -, hexpression, hdefault⟩ := parens_never_matter
  have hnone : unwrap? (trim a.toList) = none := by decide
  have htrim : trim a.toList = a.toList := by decide
  have hbare : withoutOuterParens a.toList = a.toList :=
    (withoutOuterParens_of_none hnone).trans htrim
  refine ⟨he, hwraps, (hoff he hfeed (by simp)).trans hbare,
    hexpression .default hwraps .refl, ?_, ?_⟩
  · rw [(hdefault .default "text" ⟨a, .unknown⟩ hwraps).1]
    simp [sameDefault, sameAsWritten]
  · rw [(hdefault .push "text" ⟨a, .string⟩ hwraps).2]
    have htext : literalText ⟨a, .string⟩ = literalText ⟨a, .unknown⟩ := by
      simp only [literalText, hbare]
      decide
    exact (sameDefault_of_literalText htext "text").1

end Comparison

end SchemaEvolution
