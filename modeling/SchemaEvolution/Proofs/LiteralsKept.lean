import SchemaEvolution.Comparison.Value
import SchemaEvolution.Proofs.FoldedText

/-!
# String literals in expressions that mean the same

Expressions and default values are compared by texts that are folded without heeding quotes, so a
difference within a string literal can be lost. The theorem tells which differences can be lost.

**Theorem (`Comparison.literals_kept`).** Expressions that mean the same in the mode `default` have
the same literals. Default values that are expressions and mean the same there have the same
literals up to letter case and the number of blanks in a run (`Comparison.foldedLiteral`).
Expressions that mean the same in the mode `push` have the same literals up to letter case and all
the characters that are erased (`Comparison.bareLiteral`), if in neither text a literal follows
another one with nothing but such characters in between.

Where no literal has anything to fold, it is the same in both texts, character for character. Where
one has, it can change (`Comparison.literals_lost`).
-/

namespace SchemaEvolution

open Text Sql

/-! ## Calls of the clock -/

namespace Sql.Clock

theorem mem_dropWhile {p : Char → Bool} {c : Char} {cs : List Char} (h : p c = false)
    (hc : c ∈ cs) : c ∈ cs.dropWhile p := by
  rw [← List.takeWhile_append_dropWhile (p := p) (l := cs), List.mem_append] at hc
  refine hc.resolve_left fun hm => ?_
  rw [List.mem_takeWhile_imp hm] at h
  cases h

theorem not_mem_of_precision? {cs p : List Char} (h : precision? cs = some p) :
    '\'' ∉ cs ∧ '\'' ∉ p := by
  have htrim {xs : List Char} (hm : '\'' ∈ xs) : '\'' ∈ trimStart xs := mem_dropWhile (by decide) hm
  unfold precision? at h
  split at h
  next hcs =>
    cases h
    exact ⟨fun hm => List.not_mem_nil (hcs ▸ htrim hm), List.not_mem_nil⟩
  next rest hcs =>
    dsimp only at h
    split at h
    next hend =>
      cases h
      refine ⟨fun hm => ?_, fun hm => absurd (List.mem_takeWhile_imp hm) (by decide)⟩
      have hrest : '\'' ∈ rest := (List.mem_cons.1 (hcs ▸ htrim hm)).resolve_left (by decide)
      have hclose : '\'' ∈ [')'] := hend ▸ htrim (mem_dropWhile (by decide) (htrim hrest))
      exact absurd hclose (by decide)
    next => cases h
  next => cases h

theorem not_mem_of_call? {cs p : List Char} (h : call? cs = some p) : '\'' ∉ cs ∧ '\'' ∉ p := by
  obtain ⟨name, hname, hp⟩ := List.exists_of_findSome?_eq_some h
  obtain ⟨rest, hrest, hp⟩ := Option.bind_eq_some_iff.1 hp
  have hquote : ∀ name ∈ names, '\'' ∉ name.toList := by decide
  obtain ⟨hcs, hp⟩ := not_mem_of_precision? hp
  rw [eq_of_dropStart? hrest, List.mem_append, not_or]
  exact ⟨⟨hquote name hname, hcs⟩, hp⟩

/-- A call of the clock has no literals, however it is written. -/
theorem literals_canonical (raw : List Char) : literals (canonical raw) =
    literals (Expression.folded (Expression.withoutOuterParens raw)) := by
  unfold canonical
  dsimp only
  split
  next => rfl
  next p h =>
    obtain ⟨hcs, hp⟩ := not_mem_of_call? h
    rw [literals_eq_nil hcs]
    split
    · exact literals_eq_nil (by decide)
    · refine literals_eq_nil ?_
      simp [hp]

end Sql.Clock

namespace Comparison

/-! ## What folding leaves of a literal -/

/-- A literal in lower case with its runs of blanks made one space. -/
def foldedLiteral (l : List Char) : List Char :=
  caseless (squeezed l)

/-- Whether a character does not count in an expression in the mode `push`. -/
def isMark (c : Char) : Bool :=
  isBlank c || c == '\x60' || c == '(' || c == ')'

/-- A literal in lower case without the characters that do not count in the mode `push`. -/
def bareLiteral (l : List Char) : List Char :=
  caseless (l.filter fun c => !isMark c)

theorem literals_clock (raw : List Char) :
    (literals (Clock.canonical raw)).map (List.map medial) = (literals raw).map foldedLiteral := by
  rw [Clock.literals_canonical, Expression.folded, literals_lowercase, literals_spaced,
    literals_withoutOuterParens, List.map_map]
  rfl

theorem literals_bareExpression {cs : List Char} (h : Apart (erasing isMark) cs) :
    (literals (bareExpression cs)).map (List.map medial) = (literals cs).map bareLiteral := by
  have hfilter : literals (cs.filter fun c => !isMark c) =
      (literals cs).map fun l => l.filter fun c => !isMark c := literals_filter (by decide) h
  rw [bareExpression, literals_lowercase]
  unfold isMark at hfilter
  rw [hfilter, List.map_map]
  rfl

/-! ## Literals of values that mean the same -/

theorem literals_of_sameExpression {a b : String} (h : sameExpression .default a b = true) :
    literals a.toList = literals b.toList := by
  have he : Expression.withoutOuterParens a.toList = Expression.withoutOuterParens b.toList := by
    simpa [sameExpression, Mode.isPush] using h
  rw [← literals_withoutOuterParens, he, literals_withoutOuterParens]

theorem literals_folded_of_sameDefault {type a b : String}
    (h : sameDefault .default type ⟨a, .unknown⟩ ⟨b, .unknown⟩ = true) :
    (literals a.toList).map foldedLiteral = (literals b.toList).map foldedLiteral := by
  have hc : Clock.canonical a.toList = Clock.canonical b.toList := by
    simpa [sameDefault, sameAsWritten, Mode.isPush] using h
  rw [← literals_clock, hc, literals_clock]

theorem literals_bare_of_sameExpression {a b : String} (h : sameExpression .push a b = true)
    (ha : Apart (erasing isMark) a.toList) (hb : Apart (erasing isMark) b.toList) :
    (literals a.toList).map bareLiteral = (literals b.toList).map bareLiteral := by
  rw [sameExpression, Bool.or_eq_true] at h
  obtain h | h := h
  · have hdefault : sameExpression .default a b = true := by simp [sameExpression, h]
    rw [literals_of_sameExpression hdefault]
  · have he : bareExpression a.toList = bareExpression b.toList := by simpa [Mode.isPush] using h
    rw [← literals_bareExpression ha, he, literals_bareExpression hb]

/-- **What is lost of literals** when values are taken for the same: nothing of expressions in the
mode `default`; letter case and blanks of default values; in the mode `push` letter case and the
characters that do not count. -/
theorem literals_kept (a b : String) :
    (sameExpression .default a b = true → literals a.toList = literals b.toList) ∧
    (∀ type, sameDefault .default type ⟨a, .unknown⟩ ⟨b, .unknown⟩ = true →
      SameUpTo foldedLiteral (literals a.toList) (literals b.toList)) ∧
    (sameExpression .push a b = true →
      Apart (erasing isMark) a.toList → Apart (erasing isMark) b.toList →
      SameUpTo bareLiteral (literals a.toList) (literals b.toList)) :=
  ⟨literals_of_sameExpression, fun _ h => .of_map_eq (literals_folded_of_sameDefault h),
    fun h ha hb => .of_map_eq (literals_bare_of_sameExpression h ha hb)⟩

/-- Texts that mean the same and have the same literals, with a quote, a parenthesis and a space
inside. -/
theorem literals_kept_of_labels :
    (sameExpression .default "(kind = 'it''s (a)')" "kind = 'it''s (a)'" = true ∧
      literals "(kind = 'it''s (a)')".toList = literals "kind = 'it''s (a)'".toList) ∧
    (sameDefault .default "text" ⟨"CONCAT( 'a b', 'c' )", .unknown⟩
        ⟨"(concat( 'a b',  'c' ))", .unknown⟩ = true ∧
      literals "CONCAT( 'a b', 'c' )".toList = literals "(concat( 'a b',  'c' ))".toList) ∧
    (sameExpression .push "((`kind` = 'a') OR `kind` = 'b')" "kind='a' or kind='b'" = true ∧
      literals "((`kind` = 'a') OR `kind` = 'b')".toList =
        literals "kind='a' or kind='b'".toList) := by
  have hd : sameExpression .default "(kind = 'it''s (a)')" "kind = 'it''s (a)'" = true := by
    decide +kernel
  have hv : sameDefault .default "text" ⟨"CONCAT( 'a b', 'c' )", .unknown⟩
      ⟨"(concat( 'a b',  'c' ))", .unknown⟩ = true := by decide +kernel
  have hp : sameExpression .push "((`kind` = 'a') OR `kind` = 'b')" "kind='a' or kind='b'" =
      true := by decide +kernel
  refine ⟨⟨hd, (literals_kept _ _).1 hd⟩, ⟨hv, ((literals_kept _ _).2.1 _ hv).asWritten ?_ ?_⟩, hp,
    ((literals_kept _ _).2.2 hp ?_ ?_).asWritten ?_ ?_⟩
  all_goals decide +kernel

/-- Values that are taken for the same, though a literal changed in letter case, blanks or
parentheses, or two literals became one. -/
theorem literals_lost :
    (sameDefault .default "varchar(10)" ⟨"'A'", .unknown⟩ ⟨"'a'", .unknown⟩ = true ∧
      literals "'A'".toList ≠ literals "'a'".toList) ∧
    (sameDefault .default "varchar(10)" ⟨"'a  b'", .unknown⟩ ⟨"'a b'", .unknown⟩ = true ∧
      literals "'a  b'".toList ≠ literals "'a b'".toList) ∧
    (sameExpression .push "'A'" "'a'" = true ∧
      literals "'A'".toList ≠ literals "'a'".toList) ∧
    (sameExpression .push "'(a b)'" "'ab'" = true ∧
      literals "'(a b)'".toList ≠ literals "'ab'".toList) ∧
    (sameExpression .push "'a' 'b'" "'a''b'" = true ∧
      literals "'a' 'b'".toList ≠ literals "'a''b'".toList) := by
  decide +kernel

end Comparison

end SchemaEvolution
