import Mathlib.Tactic.IntervalCases
import Mathlib.Tactic.NormNum
import SchemaEvolution.Proofs.Decimals

/-!
# Canonical decimals

**Theorem (`Decimal.canonical_decides_number`).** A text has a canonical form iff it is a literal,
and the canonical form tells its number exactly: two literals, however long, have the same one iff
they are the same rational number. A canonical form denotes the number of the text that it comes
from, and is its own canonical form.

The last part needs no look at the parser. A canonical form is the text of a reduced decimal, and
nothing is to be trimmed or folded in it (`Decimal.Spells.plain`); so it is a literal of that
decimal's number, and of the decimals of one number only one is reduced.
-/

namespace SchemaEvolution

open Text

namespace Number.Decimal

variable {d : Decimal} {raw text : List Char} {q : ℚ}

/-! ## What a literal is made of -/

/-- The characters of decimal literals. -/
def alphabet : List Char :=
  ['+', '-', '.', '0', '1', '2', '3', '4', '5', '6', '7', '8', '9']

theorem mem_alphabet_of_isDigit {c : Char} (h : c.isDigit = true) : c ∈ alphabet := by
  obtain ⟨hlow, hhigh⟩ := isDigit_iff.1 h
  have hc : c = Char.ofNat c.toNat := (Char.ofNat_toNat c).symm
  generalize c.toNat = n at hlow hhigh hc
  subst hc
  interval_cases n <;> simp [alphabet]

theorem Sign.mem_alphabet {sign : List Char} {negative : Bool} (h : Sign sign negative) :
    ∀ c ∈ sign, c ∈ alphabet := by
  cases h <;> simp [alphabet]

theorem Spells.mem_alphabet (h : Spells text d) : ∀ c ∈ text, c ∈ alphabet := by
  intro c hc
  cases h with
  | whole hsign _ hdigits =>
    rcases List.mem_append.1 hc with hc | hc
    · exact hsign.mem_alphabet c hc
    · exact mem_alphabet_of_isDigit (hdigits c hc)
  | @point sign whole fraction _ hsign _ hdigits =>
    have hparts : c ∈ sign ∨ c ∈ whole ++ fraction ∨ c = '.' := by
      simp only [List.mem_append, List.mem_cons] at hc ⊢
      tauto
    rcases hparts with hc | hc | rfl
    · exact hsign.mem_alphabet c hc
    · exact mem_alphabet_of_isDigit (hdigits c hc)
    · decide

theorem Spells.plain (h : Spells text d) : (trim text).map Char.toLower = text := by
  have hplain : ∀ c ∈ alphabet, isBlank c = false ∧ c.toLower = c := by
    simp [alphabet, isBlank, inRanges, blankRanges]
  have htrim : trim text = text := trim_eq_self_iff.2
    ⟨fun c hc => (hplain c (h.mem_alphabet c (List.mem_of_mem_head? hc))).1,
      fun c hc => (hplain c (h.mem_alphabet c (List.mem_of_mem_getLast? hc))).1⟩
  rw [htrim]
  exact (List.map_congr_left fun c hc => (hplain c (h.mem_alphabet c hc)).2).trans text.map_id

/-! ## Canonical forms of canonical forms -/

theorem Reduced.denotes_render (hd : Reduced d) : Denotes d.render d.value :=
  .decimal (hd.spells_render.plain.symm ▸ hd.spells_render)

theorem Reduced.canonical?_render (hd : Reduced d) : canonical? d.render = some d.render := by
  obtain ⟨e, he, hvalue, hform⟩ := hd.denotes_render.canonical?
  rw [hform, he.eq_of_value hd hvalue]

theorem isSome_canonical?_iff : (canonical? raw).isSome = true ↔ IsLiteral raw := by
  rw [← not_iff_not, ← canonical?_eq_none_iff, Bool.not_eq_true, Option.isSome_eq_false_iff,
    Option.isNone_iff_eq_none]

theorem exists_reduced (h : canonical? raw = some text) :
    ∃ d, Reduced d ∧ Denotes raw d.value ∧ text = d.render := by
  obtain ⟨q, hq⟩ := isSome_canonical?_iff.1 (Option.isSome_of_eq_some h)
  obtain ⟨d, hd, rfl, hform⟩ := hq.canonical?
  exact ⟨d, hd, hq, Option.some.inj (h.symm.trans hform)⟩

/-- **A canonical form tells the number exactly.** Literals and no other texts have one, and it is
that of the same number; a canonical form stays as it is. -/
theorem canonical_decides_number (raw : List Char) :
    ((canonical? raw).isSome = true ↔ IsLiteral raw) ∧
    (∀ raw' p q, Denotes raw p → Denotes raw' q →
      ∃ x y, canonical? raw = some x ∧ canonical? raw' = some y ∧ (x = y ↔ p = q)) ∧
    ∀ x, canonical? raw = some x →
      canonical? x = some x ∧ ∃ q, Denotes raw q ∧ Denotes x q := by
  refine ⟨isSome_canonical?_iff, fun raw' p q hp hq => ?_, fun x hx => ?_⟩
  · obtain ⟨d, -, -, hd⟩ := hp.canonical?
    obtain ⟨e, -, -, he⟩ := hq.canonical?
    refine ⟨d.render, e.render, hd, he, ?_⟩
    rw [← canonical?_eq_iff hp hq, hd, he, Option.some.injEq]
  · obtain ⟨d, hd, hraw, rfl⟩ := exists_reduced hx
    exact ⟨hd.canonical?_render, d.value, hraw, hd.denotes_render⟩

/-- Whole numbers that floating point cannot tell apart have canonical forms of their own. -/
theorem canonical_decides_number_large :
    let a := " +09007199254740993.0".toList
    let b := "9007199254740992".toList
    let x := "9007199254740993".toList
    Denotes a 9007199254740993 ∧ Denotes b 9007199254740992 ∧
    (canonical? a = some x ∧ canonical? b = some b ∧ x ≠ b) ∧ canonical? x = some x := by
  intro a b x
  have ha : Denotes a 9007199254740993 := by
    have hparts : ofChars? ((trim a).map Char.toLower) =
        some ⟨false, "09007199254740993".toList, ['0']⟩ := by decide +kernel
    have hdigits : digitsValue ("09007199254740993".toList ++ ['0']) = 90071992547409930 := by
      decide +kernel
    have h := Denotes.decimal (ofChars?_eq_some_iff.1 hparts)
    norm_num [value, magnitude, digits, hdigits] at h
    exact h
  have hb : Denotes b 9007199254740992 := by
    have hparts : ofChars? ((trim b).map Char.toLower) = some ⟨false, b, []⟩ := by decide +kernel
    have hdigits : digitsValue b = 9007199254740992 := by decide +kernel
    have h := Denotes.decimal (ofChars?_eq_some_iff.1 hparts)
    norm_num [value, magnitude, digits, hdigits] at h
    exact h
  obtain ⟨-, hnumber, hstays⟩ := canonical_decides_number a
  obtain ⟨x', y, hx', hy, hxy⟩ := hnumber b _ _ ha hb
  have hx : canonical? a = some x := by decide +kernel
  have hb' : canonical? b = some b := by decide +kernel
  obtain rfl : x = x' := Option.some.inj (hx.symm.trans hx')
  obtain rfl : b = y := Option.some.inj (hb'.symm.trans hy)
  have hne : x ≠ b := fun h => by
    have := hxy.1 h
    norm_num at this
  exact ⟨ha, hb, ⟨hx, hb', hne⟩, (hstays x hx).1⟩

end Number.Decimal

end SchemaEvolution
