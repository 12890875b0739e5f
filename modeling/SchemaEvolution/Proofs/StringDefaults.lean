import SchemaEvolution.Comparison.Value
import SchemaEvolution.Proofs.Decimals

/-!
# Default values of character columns

The default value of a character column is a text, so two of them should mean the same only if they
are the same text. That the type of a column is heeded holds of dates only, and that the kind of a
default is heeded of documents only; whether two texts are the same number is asked of every column.

**Theorem (`Comparison.strings_compared`).** In the mode `push`, two strings mean the same for a
character column iff they are the same text or the same number: decimals of one value, in the exact
arithmetic of rational numbers, or else two texts that floating point reads as neighbours.

So texts one of which is no number are compared as texts, and no others
(`Comparison.strings_confused`).
-/

namespace SchemaEvolution

open Text Sql Number

namespace Comparison

variable {a b : List Char}

/-! ## The same number -/

/-- Two texts are the same number. -/
inductive SameNumber (a b : List Char) : Prop
  /-- Decimals of one value. -/
  | exact {q : ℚ} (ha : Decimal.Denotes a q) (hb : Decimal.Denotes b q)
  /-- Numbers not both written as decimals, next to each other in floating point. -/
  | near {x y : Binary64} (hnot : ¬(Decimal.IsLiteral a ∧ Decimal.IsLiteral b))
      (ha : Binary64.ofChars? (trim a) = some x) (hb : Binary64.ofChars? (trim b) = some y)
      (hnear : x.isNear y = true)

/-- Texts that are not both literals are compared in floating point. -/
theorem sameNumber_of_not_isLiteral (h : ¬(Decimal.IsLiteral a ∧ Decimal.IsLiteral b)) :
    sameNumber a b = true ↔ ∃ x y, Binary64.ofChars? (trim a) = some x ∧
      Binary64.ofChars? (trim b) = some y ∧ x.isNear y = true := by
  have hnone : Decimal.canonical? a = none ∨ Decimal.canonical? b = none := by
    rwa [Decimal.canonical?_eq_none_iff, Decimal.canonical?_eq_none_iff, ← not_and_or]
  unfold sameNumber
  split
  next ha hb => simp [ha, hb] at hnone
  next =>
    split
    next x y hx hy => simp [hx, hy]
    next hno =>
      constructor
      · simp
      · rintro ⟨x, y, hx, hy, -⟩
        exact (hno x y hx hy).elim

theorem sameNumber_of_denotes {p q : ℚ} (hp : Decimal.Denotes a p) (hq : Decimal.Denotes b q) :
    sameNumber a b = true ↔ p = q := by
  obtain ⟨d, -, -, hd⟩ := hp.canonical?
  obtain ⟨e, -, -, he⟩ := hq.canonical?
  rw [← Decimal.canonical?_eq_iff hp hq, sameNumber, hd, he]
  simp

theorem sameNumber_eq_true_iff : sameNumber a b = true ↔ SameNumber a b := by
  by_cases hlit : Decimal.IsLiteral a ∧ Decimal.IsLiteral b
  · obtain ⟨⟨p, hp⟩, q, hq⟩ := hlit
    rw [sameNumber_of_denotes hp hq]
    constructor
    · rintro rfl
      exact .exact hp hq
    · rintro (⟨ha, hb⟩ | ⟨hnot⟩)
      · exact (hp.unique ha).trans (hb.unique hq)
      · exact (hnot ⟨⟨p, hp⟩, q, hq⟩).elim
  · rw [sameNumber_of_not_isLiteral hlit]
    constructor
    · rintro ⟨x, y, hx, hy, hnear⟩
      exact .near hlit hx hy hnear
    · rintro (⟨ha, hb⟩ | ⟨-, hx, hy, hnear⟩)
      · exact (hlit ⟨⟨_, ha⟩, _, hb⟩).elim
      · exact ⟨_, _, hx, hy, hnear⟩

/-! ## Character columns -/

/-- Base names of character types. -/
def characterBases : List String :=
  ["char", "varchar", "text", "tinytext", "mediumtext", "longtext"]

theorem isTemporal_of_characterBases {t : ColumnType} (h : t.base ∈ characterBases) :
    t.isTemporal = false := by
  simp only [characterBases, List.mem_cons, List.not_mem_nil, or_false] at h
  rcases h with h | h | h | h | h | h <;> simp [ColumnType.isTemporal, h]

/-- **What is asked of strings**: the same text, or the same number. A character column holds no
dates, and strings are no documents, so nothing comes before the question for a number. -/
theorem strings_compared {type : String} {a b : DefaultValue}
    (htype : (ColumnType.ofString type).base ∈ characterBases)
    (ha : a.kind = .string) (hb : b.kind = .string) :
    sameDefault .push type a b = true ↔
      a.value = b.value ∨ SameNumber a.value.toList b.value.toList := by
  have hwritten : sameAsWritten a b = (a.value == b.value) := by simp [sameAsWritten, ha, hb]
  have htext {d : DefaultValue} (hd : d.kind = .string) : literalText d = d.value.toList := by
    simp [literalText, hd]
  have hmeaning : sameMeaning type (a.kind == .json || b.kind == .json) a.value.toList
      b.value.toList = sameNumber a.value.toList b.value.toList := by
    simp [sameMeaning, isTemporal_of_characterBases htype, ha, hb]
  rw [sameDefault, hwritten, htext ha, htext hb, hmeaning, ← sameNumber_eq_true_iff]
  simp [Mode.isPush, String.toList_inj]

/-- The same number in two texts is the same string, and numbers with a unit are told apart by
letter case. -/
theorem strings_compared_of_sizes :
    (ColumnType.ofString "VARCHAR(10)").base ∈ characterBases ∧
    (SameNumber "+1.50".toList "1.5".toList ∧
      sameDefault .push "VARCHAR(10)" ⟨"+1.50", .string⟩ ⟨"1.5", .string⟩ = true) ∧
    (sameDefault .push "VARCHAR(10)" ⟨"7px", .string⟩ ⟨"7PX", .string⟩ = false ∧
      ¬SameNumber "7px".toList "7PX".toList) := by
  have htype : (ColumnType.ofString "VARCHAR(10)").base ∈ characterBases := by decide +kernel
  have hsame : SameNumber "+1.50".toList "1.5".toList :=
    sameNumber_eq_true_iff.1 (by decide +kernel)
  have hunit : sameDefault .push "VARCHAR(10)" ⟨"7px", .string⟩ ⟨"7PX", .string⟩ = false := by
    decide +kernel
  refine ⟨htype, ⟨hsame, (strings_compared htype rfl rfl).2 (.inr hsame)⟩, hunit, fun h => ?_⟩
  rw [(strings_compared htype rfl rfl).2 (.inr h)] at hunit
  cases hunit

/-- Strings of a character column that are taken for the same, though their texts differ: codes with
zeros in front, words and digits, powers of ten, and all that is nearly zero. -/
theorem strings_confused :
    (ColumnType.ofString "varchar(10)").base = "varchar" ∧
    (sameDefault .push "varchar(10)" ⟨"007", .string⟩ ⟨"7", .string⟩ = true ∧ "007" ≠ "7") ∧
    (sameDefault .push "varchar(10)" ⟨"true", .string⟩ ⟨"1", .string⟩ = true ∧ "true" ≠ "1") ∧
    (sameDefault .push "varchar(10)" ⟨"1e2", .string⟩ ⟨"100", .string⟩ = true ∧ "1e2" ≠ "100") ∧
    (sameDefault .push "varchar(10)" ⟨"1e-20", .string⟩ ⟨"2e-20", .string⟩ = true ∧
      "1e-20" ≠ "2e-20") := by
  decide +kernel

end Comparison

end SchemaEvolution
