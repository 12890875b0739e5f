import SchemaEvolution.Comparison.Value
import SchemaEvolution.Plan.Clause
import SchemaEvolution.Proofs.Entries

/-!
# Default values as they are written

A migration writes a default value as SQL, and a database reports that SQL back as an expression,
without the kind of the value. The two have to be the same default, or a schema that was just
pushed would have to be pushed again.

**Theorem (`Comparison.written_default_same`).** In the mode `push`, a string is the same default as
the SQL written for it, on either side and for every column type. So is a long text, unless it is a
literal itself: its own quotes are then taken for those of the SQL.

**A literal reads back** (`Literal.unquote_quote`) because reading undoes the doubling of quotes and
backslashes. The SQL of a long text stands in parentheses. They are taken off, and no others: a
doubled quote leaves and enters the literal again with nothing in between, so whatever
parentheses the text holds are within quotes (`Expression.closesAtEnd_escape`).
-/

namespace SchemaEvolution

open Text Sql

/-! ## Literals -/

namespace Sql.Literal

theorem trim_quote (cs : List Char) : trim (quote cs) = quote cs := by
  have hmark : trim ['\''] = ['\''] := rfl
  exact trim_append_of_trimmed (escape cs) hmark hmark (by simp) (by simp)

theorem inside?_quote (cs : List Char) : inside? (quote cs) = some (escape cs) := by
  rw [inside?, trim_quote]
  simp [quote]

/-- **A text reads back from its literal**, whatever quotes and backslashes it has. -/
theorem unquote_quote (cs : List Char) : unquote (quote cs) = some cs := by
  rw [unquote, inside?_quote, Option.map_some, unescape_escape]

end Sql.Literal

/-! ## Parentheses around literals -/

namespace Sql.Expression

open Literal

/-- Within a literal no parenthesis counts: a scan comes out of it as it went in. -/
theorem closesAtEnd_escape (depth : Nat) (cs rest : List Char) :
    closesAtEnd depth true (escape cs ++ rest) = closesAtEnd depth true rest := by
  induction cs with
  | nil => rfl
  | cons c cs ih =>
    by_cases hquote : c = '\''
    · subst hquote
      simpa [escape, closesAtEnd] using ih
    · by_cases hslash : c = '\\'
      · subst hslash
        simpa [escape, closesAtEnd] using ih
      · simpa [escape, closesAtEnd, hquote, hslash] using ih

/-- The text with parentheses around it. -/
def wrapped (cs : List Char) : List Char :=
  '(' :: cs ++ [')']

theorem unwrap?_quote (cs : List Char) : unwrap? (quote cs) = none := rfl

/-- The parentheses around a literal close at its end. -/
theorem unwrap?_wrapped_quote (cs : List Char) :
    unwrap? (wrapped (quote cs)) = some (quote cs) := by
  have hscan : closesAtEnd 0 false (wrapped (quote cs)) = true := by
    have hquoted : closesAtEnd 0 false (wrapped (quote cs)) =
        closesAtEnd 1 true (escape cs ++ ['\'', ')']) := by
      simp [wrapped, quote, closesAtEnd]
    rw [hquoted, closesAtEnd_escape]
    decide
  have hlast : (quote cs ++ [')']).getLast? = some ')' := List.getLast?_concat
  rw [wrapped, List.cons_append] at hscan ⊢
  rw [unwrap?, if_pos ⟨hlast, hscan⟩, List.dropLast_concat]

theorem withoutOuterParens_quote (cs : List Char) : withoutOuterParens (quote cs) = quote cs := by
  rw [withoutOuterParens_of_none (by rw [trim_quote, unwrap?_quote]), trim_quote]

theorem trim_wrapped (cs : List Char) : trim (wrapped cs) = wrapped cs := by
  have hopen : trim ['('] = ['('] := rfl
  have hclose : trim [')'] = [')'] := rfl
  exact trim_append_of_trimmed cs hopen hclose (by simp) (by simp)

theorem withoutOuterParens_wrapped (cs : List Char) :
    withoutOuterParens (wrapped (quote cs)) = quote cs := by
  rw [withoutOuterParens_of_some (by rw [trim_wrapped, unwrap?_wrapped_quote]),
    withoutOuterParens_quote]

end Sql.Expression

/-! ## Default values -/

/-- A default value as a database reports it: the SQL written for it, of no known kind. -/
def DefaultValue.reported (d : DefaultValue) : DefaultValue :=
  ⟨d.clause, .unknown⟩

namespace DefaultValue

theorem toList_reported_string (v : String) :
    (reported ⟨v, .string⟩).value.toList = Literal.quote v.toList :=
  String.toList_ofList

theorem toList_reported_text (v : String) :
    (reported ⟨v, .text⟩).value.toList = Expression.wrapped (Literal.quote v.toList) := by
  have hclause : (reported ⟨v, .text⟩).value = "(" ++ literal v ++ ")" := rfl
  simp [hclause, literal, Expression.wrapped]

end DefaultValue

namespace Comparison

open DefaultValue

/-- Behind an expression that is a literal stands its text. -/
theorem literalText_of_unknown {d : DefaultValue} {cs : List Char} (hd : d.kind = .unknown)
    (hbare : Expression.withoutOuterParens d.value.toList = Literal.quote cs) :
    literalText d = cs := by
  simp only [literalText, hd, hbare, Literal.unquote_quote, Option.getD_some]

theorem literalText_reported_string (v : String) :
    literalText (reported ⟨v, .string⟩) = v.toList := by
  refine literalText_of_unknown rfl ?_
  rw [toList_reported_string, Expression.withoutOuterParens_quote]

theorem literalText_reported_text (v : String) :
    literalText (reported ⟨v, .text⟩) = v.toList := by
  refine literalText_of_unknown rfl ?_
  rw [toList_reported_text, Expression.withoutOuterParens_wrapped]

/-- Defaults with the same text behind them mean the same for every column. -/
theorem sameDefault_of_literalText {a b : DefaultValue} (h : literalText a = literalText b)
    (type : String) : sameDefault .push type a b = true ∧ sameDefault .push type b a = true := by
  simp [sameDefault, Mode.isPush, h]

/-- **A default value is the same as the SQL written for it**: a string always, a long text unless
it is a literal itself. -/
theorem written_default_same (v type : String) :
    Literal.unquote (Literal.quote v.toList) = some v.toList ∧
    (sameDefault .push type ⟨v, .string⟩ (reported ⟨v, .string⟩) = true ∧
      sameDefault .push type (reported ⟨v, .string⟩) ⟨v, .string⟩ = true) ∧
    (Literal.unquote v.toList = none →
      sameDefault .push type ⟨v, .text⟩ (reported ⟨v, .text⟩) = true ∧
      sameDefault .push type (reported ⟨v, .text⟩) ⟨v, .text⟩ = true) := by
  refine ⟨Literal.unquote_quote v.toList, sameDefault_of_literalText ?_ type,
    fun hv => sameDefault_of_literalText ?_ type⟩
  · exact (literalText_reported_string v).symm
  · have htext : literalText ⟨v, .text⟩ = v.toList := by simp [literalText, hv]
    rw [htext, literalText_reported_text]

/-- Quotes, backslashes, parentheses and blanks within a long text come to no harm. -/
theorem written_default_same_punctuation :
    let v := " it')('s \\' )"
    Literal.unquote v.toList = none ∧
    (reported ⟨v, .text⟩).value = "(' it'')(''s \\\\'' )')" ∧
    sameDefault .push "text" ⟨v, .text⟩ (reported ⟨v, .text⟩) = true := by
  intro v
  have hnone : Literal.unquote v.toList = none := by decide
  exact ⟨hnone, by decide, ((written_default_same v "text").2.2 hnone).1⟩

end Comparison

end SchemaEvolution
