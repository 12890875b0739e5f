import SchemaEvolution.Number.Binary64
import SchemaEvolution.Text.Digit
import SchemaEvolution.Text.Split

/-!
# Texts of floating-point numbers

The text of a number in positional or scientific notation: an optional sign, digits with at most
one point and at least one digit, and an optional exponent. The number is the nearest one of the
format; a text beyond the largest number, and a name of a value that is not finite, is none.
-/

namespace SchemaEvolution.Number.Binary64

open Text

/-- The value of an exponent: an optional sign and at least one digit. -/
def exponentOfChars? (cs : List Char) : Option Int :=
  let (negative, ds) := match cs with
    | '-' :: r => (true, r)
    | '+' :: r => (false, r)
    | _ => (false, cs)
  if ds ≠ [] ∧ ds.all Char.isDigit then
    let e : Int := digitsValue ds
    some (if negative then -e else e)
  else none

/-- The number of a text without its sign. -/
def ofMagnitude? (negative : Bool) (cs : List Char) : Option Binary64 :=
  let whole := cs.takeWhile Char.isDigit
  let rest := cs.dropWhile Char.isDigit
  let (fraction, rest) := match rest with
    | '.' :: r => (r.takeWhile Char.isDigit, r.dropWhile Char.isDigit)
    | _ => ([], rest)
  let exponent := match rest with
    | [] => some 0
    | c :: r => if c = 'e' ∨ c = 'E' then exponentOfChars? r else none
  if whole = [] ∧ fraction = [] then none
  else exponent.bind fun e =>
    ofDecimal? negative (digitsValue (whole ++ fraction)) (e - fraction.length)

def ofChars? : List Char → Option Binary64
  | '-' :: r => ofMagnitude? true r
  | '+' :: r => ofMagnitude? false r
  | cs => ofMagnitude? false cs

end SchemaEvolution.Number.Binary64
