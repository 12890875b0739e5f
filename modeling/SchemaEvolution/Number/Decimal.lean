import SchemaEvolution.Text.Blank
import SchemaEvolution.Text.Split

/-!
# Decimal literals

A plain decimal literal is an optional sign and ASCII digits with at most one point; the words
`true` and `false` are the numbers one and zero. Every such literal has one canonical form: no
zeros in front of the whole part (but at least one digit), none at the end of the fraction, no
point without a fraction, and no sign on zero.
-/

namespace SchemaEvolution.Number

open Text

/-- A decimal literal, taken apart. -/
structure Decimal where
  negative : Bool
  whole : List Char
  fraction : List Char
deriving DecidableEq, Repr

namespace Decimal

/-- The sign of a number text and what follows it. -/
def splitSign : List Char → Bool × List Char
  | '-' :: r => (true, r)
  | '+' :: r => (false, r)
  | cs => (false, cs)

/-- The parts of a literal as it is written. -/
def ofChars? (cs : List Char) : Option Decimal :=
  let (negative, digits) := splitSign cs
  let (whole, fraction) := (cutAt ['.'] digits).getD (digits, [])
  if (whole ++ fraction) ≠ [] ∧ (whole ++ fraction).all Char.isDigit then
    some ⟨negative, whole, fraction⟩
  else none

/-- The parts without superfluous zeros and without a sign on zero. -/
def reduce (d : Decimal) : Decimal :=
  let whole := d.whole.dropWhile (· == '0')
  let fraction := (d.fraction.reverse.dropWhile (· == '0')).reverse
  ⟨d.negative && !(whole.isEmpty && fraction.isEmpty),
    if whole = [] then ['0'] else whole, fraction⟩

/-- The literal that the parts make up. -/
def render (d : Decimal) : List Char :=
  (if d.negative then ['-'] else []) ++ d.whole ++
    (if d.fraction = [] then [] else '.' :: d.fraction)

/-- The canonical form of a literal; `none` for any other text. -/
def canonical? (raw : List Char) : Option (List Char) :=
  let text := (trim raw).map Char.toLower
  if text = "true".toList then some ['1']
  else if text = "false".toList then some ['0']
  else (ofChars? text).map fun d => d.reduce.render

end Decimal

end SchemaEvolution.Number
