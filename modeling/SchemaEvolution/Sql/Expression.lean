import SchemaEvolution.Text.Blank
import SchemaEvolution.Text.Lowercase

/-!
# Expressions

An expression is opaque text, but parentheses around the whole of it have no meaning.
`withoutOuterParens` takes them off, as many as there are. Quotes are heeded: a parenthesis
inside a string literal neither opens nor closes.
-/

namespace SchemaEvolution.Sql.Expression

open Text

/-- Scans an expression at a nesting depth, inside a string literal or not: no parenthesis
closes the outermost level before the end, and the end is reached at depth zero. -/
def closesAtEnd (depth : Nat) (quoted : Bool) : List Char → Bool
  | [] => depth == 0
  | c :: rest =>
    if c = '\'' then closesAtEnd depth (!quoted) rest
    else if c = '(' ∧ !quoted then closesAtEnd (depth + 1) quoted rest
    else if c = ')' ∧ !quoted then
      (depth - 1 != 0 || rest.isEmpty) && closesAtEnd (depth - 1) quoted rest
    else closesAtEnd depth quoted rest

/-- What stands between the parentheses that wrap a whole expression. -/
def unwrap? (cs : List Char) : Option (List Char) :=
  match cs with
  | '(' :: r => if r.getLast? = some ')' ∧ closesAtEnd 0 false cs then some r.dropLast else none
  | _ => none

theorem length_trim_le (cs : List Char) : (trim cs).length ≤ cs.length := by
  have h (xs : List Char) : (trimStart xs).length ≤ xs.length :=
    (List.dropWhile_sublist _).length_le
  have h₁ := h (trimStart cs).reverse
  have h₂ := h cs
  simp only [trim, trimEnd, List.length_reverse] at h₁ ⊢
  omega

theorem length_of_unwrap? {cs inner : List Char} (h : unwrap? cs = some inner) :
    inner.length < cs.length := by
  unfold unwrap? at h
  split at h
  · split at h
    · cases h; simp only [List.length_dropLast, List.length_cons]; omega
    · cases h
  · cases h

/-- The expression without parentheses around the whole of it, and without blanks at its ends. -/
def withoutOuterParens (cs : List Char) : List Char :=
  match _h : unwrap? (trim cs) with
  | some inner => withoutOuterParens inner
  | none => trim cs
termination_by cs.length
decreasing_by exact Nat.lt_of_lt_of_le (length_of_unwrap? _h) (length_trim_le cs)

theorem withoutOuterParens_of_some {cs inner : List Char} (h : unwrap? (trim cs) = some inner) :
    withoutOuterParens cs = withoutOuterParens inner := by
  rw [withoutOuterParens]
  split
  next inner' h' =>
    obtain rfl : inner = inner' := Option.some.inj (h.symm.trans h')
    rfl
  next h' =>
    rw [h'] at h
    cases h

theorem withoutOuterParens_of_none {cs : List Char} (h : unwrap? (trim cs) = none) :
    withoutOuterParens cs = trim cs := by
  rw [withoutOuterParens]
  split
  next inner' h' =>
    rw [h'] at h
    cases h
  next => rfl

/-- The words of an expression in lower case, one space apart. -/
def folded (cs : List Char) : List Char :=
  lowercase (spaced cs)

end SchemaEvolution.Sql.Expression
