/-!
# Binary floating point

A finite number of the 64-bit binary format is a sign, a significand below 2^53 and an exponent
of two. Everything is computed on natural numbers: `nearest` rounds a quotient to the nearest such
number, half way to the even one, and products, quotients and distances are rounded from their
exact values. `shortest` finds the fewest decimal digits that read back as the number, and of
those the nearest.
-/

namespace SchemaEvolution.Number

/-- The finite number `± significand · 2 ^ exponent`. -/
structure Binary64 where
  negative : Bool
  significand : Nat
  exponent : Int
deriving DecidableEq, Repr

namespace Binary64

/-- The exponent of the numbers around zero. -/
def minExponent : Int := -1074

/-- The exponent of the largest numbers. -/
def maxExponent : Int := 971

/-- The quotient rounded to the nearest whole number, half way to the even one. -/
def roundQuotient (num den : Nat) : Nat :=
  let q := num / den
  let r := num % den
  if 2 * r < den || (2 * r == den && q % 2 == 0) then q else q + 1

/-- The quotient `num / den` measured in units of `2 ^ e`, as a quotient. -/
def inUnits (num den : Nat) (e : Int) : Nat × Nat :=
  (num * Nat.pow 2 (-e).toNat, den * Nat.pow 2 e.toNat)

/-- The exponent at which `num / den` has 53 significant binary digits, if it is large enough. -/
def exponentOf (num den : Nat) : Int :=
  let e := max minExponent ((num.log2 : Int) - den.log2 - 53)
  let (n, d) := inUnits num den e
  if n / d < Nat.pow 2 53 then e else e + 1

def zero (negative : Bool) : Binary64 := ⟨negative, 0, minExponent⟩

/-- The number of the format nearest to `num / den`; `none` beyond the largest one. -/
def nearest (negative : Bool) (num den : Nat) : Option Binary64 :=
  if num = 0 then some (zero negative)
  else
    let e := exponentOf num den
    let (n, d) := inUnits num den e
    let m := roundQuotient n d
    let (m, e) := if m = Nat.pow 2 53 then (Nat.pow 2 52, e + 1) else (m, e)
    if e ≤ maxExponent then some ⟨negative, m, e⟩ else none

/-- The magnitude as a quotient. -/
def ratio (x : Binary64) : Nat × Nat :=
  (x.significand * Nat.pow 2 x.exponent.toNat, Nat.pow 2 (-x.exponent).toNat)

def mul (x y : Binary64) : Option Binary64 :=
  nearest (x.negative != y.negative) (x.ratio.1 * y.ratio.1) (x.ratio.2 * y.ratio.2)

/-- The quotient, rounded, for a divisor other than zero. -/
def div (x y : Binary64) : Option Binary64 :=
  nearest (x.negative != y.negative) (x.ratio.1 * y.ratio.2) (x.ratio.2 * y.ratio.1)

/-- Same value: the two zeros do not differ. -/
def sameValue (x y : Binary64) : Bool :=
  x.significand == y.significand && x.exponent == y.exponent &&
    (x.negative == y.negative || x.significand == 0)

/-- The signed numerator over the common denominator `den`. -/
def numeratorOver (x : Binary64) (den : Nat) : Int :=
  let n : Int := x.ratio.1 * (den / x.ratio.2)
  if x.negative then -n else n

/-- The difference of two numbers, rounded, without its sign. -/
def distance (x y : Binary64) : Option Binary64 :=
  let den := max x.ratio.2 y.ratio.2
  nearest false (x.numeratorOver den - y.numeratorOver den).natAbs den

/-- Whether two numbers lie closer together than one and its successor. -/
def isNear (x y : Binary64) : Bool :=
  match distance x y with
  | some d => d.ratio.1 * Nat.pow 2 52 < d.ratio.2
  | none => false

/-- The number nearest to `digits · 10 ^ exponent`; `none` beyond the largest one. -/
def ofDecimal? (negative : Bool) (digits : Nat) (exponent : Int) : Option Binary64 :=
  let size := (Nat.toDigits 10 digits).length + exponent
  if digits = 0 ∨ size < -330 then some (zero negative)
  else if 330 < size then none
  else nearest negative (digits * Nat.pow 10 exponent.toNat) (Nat.pow 10 (-exponent).toNat)

/-! ## Shortest decimal digits -/

/-- Compares `c · 10 ^ p` with `b · 2 ^ e`. -/
def compareScaled (c : Nat) (p : Int) (b : Nat) (e : Int) : Ordering :=
  compare (c * Nat.pow 10 p.toNat * Nat.pow 2 (-e).toNat)
    (b * Nat.pow 2 e.toNat * Nat.pow 10 (-p).toNat)

/-- Whether `c · 10 ^ p` lies among the reals that round to the magnitude of `x`. The ends of
that interval belong to it iff the significand is even. -/
def roundsTo (x : Binary64) (c : Nat) (p : Int) : Bool :=
  let e := x.exponent - 2
  let below := if x.significand = Nat.pow 2 52 ∧ minExponent < x.exponent then 1 else 2
  let lower := compareScaled c p (4 * x.significand - below) e
  let upper := compareScaled c p (4 * x.significand + 2) e
  if x.significand % 2 = 0 then lower.isGE && upper.isLE
  else lower.isGT && upper.isLT

/-- The place of the first decimal digit of a magnitude other than zero. -/
def leadingPlace (x : Binary64) : Int :=
  let (n, d) := x.ratio
  (Nat.toDigits 10 (n * Nat.pow 10 400 / d)).length - 401

/-- The neighbours of the magnitude on the grid `10 ^ p` that read back, the nearer one first. -/
def gridPoint? (x : Binary64) (p : Int) : Option Nat :=
  let (n, d) := x.ratio
  let num := n * Nat.pow 10 (-p).toNat
  let den := d * Nat.pow 10 p.toNat
  let near := roundQuotient num den
  let far := if near = num / den then near + 1 else num / den
  [near, far].find? fun c => roundsTo x c p

/-- A natural number without its trailing zeros, and their number. -/
def dropZeros (c : Nat) (p : Int) : List Char × Int :=
  let ds := Nat.toDigits 10 c
  let zeros := (ds.reverse.takeWhile (· == '0')).length
  (ds.take (ds.length - zeros), p + zeros)

/-- The fewest digits `c` and a place `p` such that `c · 10 ^ p` reads back as the magnitude of a
number other than zero. -/
def shortest (x : Binary64) : List Char × Int :=
  let place := x.leadingPlace
  let hit := (List.range 17).findSome? fun (k : Nat) =>
    (gridPoint? x (place - k)).map fun c => dropZeros c (place - k)
  hit.getD (['0'], 0)

end Binary64

end SchemaEvolution.Number
