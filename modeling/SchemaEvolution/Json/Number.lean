import SchemaEvolution.Number.Binary64
import SchemaEvolution.Text.Digit

/-!
# Numbers of a document

A number literal is kept as it is written (`Numeral`) until its value is asked for. The value is a
whole number if the literal has neither fraction nor exponent and fits 64 bits, and otherwise a
floating-point number: the digits that fit 64 bits as a significand, scaled by powers of ten with
one rounding each. A literal beyond the largest floating-point number has no value.
-/

namespace SchemaEvolution

open Text Number

/-- A number literal: sign, digits before and after the point, and exponent of ten. -/
structure Numeral where
  negative : Bool
  whole : List Char
  fraction : List Char
  exponent : Option Int
deriving DecidableEq, Repr

/-- The value of a number literal. -/
inductive JsonNumber where
  | integer (n : Int)
  | float (x : Binary64)
deriving DecidableEq, Repr

namespace Numeral

def ofNat (n : Nat) : Numeral := ⟨false, decimalDigits n, [], none⟩

/-- The significand that has been gathered, the power of ten it stands at, and whether a digit
has been refused because it does not fit. -/
structure Gathered where
  significand : Nat
  exponent : Int
  full : Bool

/-- Takes one more digit if the significand stays below 2^64. -/
def Gathered.push? (g : Gathered) (c : Char) : Option Nat :=
  let n := 10 * g.significand + digitValue c
  if g.full || Nat.pow 2 64 ≤ n then none else some n

/-- Takes a digit before the point: one that does not fit, and every later one, raises the power
of ten instead. -/
def Gathered.pushWhole (g : Gathered) (c : Char) : Gathered :=
  match g.push? c with
  | some n => { g with significand := n }
  | none => { g with exponent := g.exponent + 1, full := true }

/-- Takes a digit after the point: one that does not fit, and every later one, is dropped. -/
def Gathered.pushFraction (g : Gathered) (c : Char) : Gathered :=
  match g.push? c with
  | some n => { g with significand := n, exponent := g.exponent - 1 }
  | none => { g with full := true }

/-- The digits of the whole part. -/
def gatherWhole (n : Numeral) : Gathered :=
  n.whole.foldl Gathered.pushWhole ⟨0, 0, false⟩

/-- The digits of both parts. -/
def gather (n : Numeral) : Gathered :=
  n.fraction.foldl Gathered.pushFraction { n.gatherWhole with full := false }

/-- The largest power of ten by which a number is scaled in one step. -/
def maxPower : Nat := 308

/-- A power of ten as a floating-point number. -/
def power (k : Nat) : Binary64 :=
  (Binary64.nearest false (Nat.pow 10 k) 1).getD (Binary64.zero false)

/-- Divides by a power of ten, in steps of at most `maxPower`. -/
def scaleDown (x : Binary64) (k : Nat) : Option Binary64 :=
  if k ≤ maxPower then x.div (power k)
  else if x.significand = 0 then some x
  else (x.div (power maxPower)).bind fun y => scaleDown y (k - maxPower)
termination_by k
decreasing_by simp [maxPower] at *; omega

/-- Scales by a power of ten. -/
def scale (x : Binary64) (e : Int) : Option Binary64 :=
  if e < 0 then scaleDown x (-e).toNat
  else if e.toNat ≤ maxPower then x.mul (power e.toNat)
  else if x.significand = 0 then some x
  else none

/-- The literal as a floating-point number; `none` beyond the largest one. -/
def float? (n : Numeral) : Option Binary64 :=
  let g := n.gather
  (Binary64.nearest false g.significand 1).bind fun x =>
    (scale x (g.exponent + n.exponent.getD 0)).map fun y => { y with negative := n.negative }

/-- The value of a literal; `none` beyond the largest floating-point number. A negative zero is a
floating-point number. -/
def value? (n : Numeral) : Option JsonNumber :=
  let g := n.gatherWhole
  if n.fraction = [] ∧ n.exponent = none ∧ !g.full then
    if !n.negative then some (.integer g.significand)
    else if 0 < g.significand ∧ g.significand ≤ Nat.pow 2 63 then some (.integer (-g.significand))
    else n.float?.map .float
  else n.float?.map .float

end Numeral

namespace JsonNumber

/-- Same value of the same sort: a whole number never equals a floating-point number. -/
def same : JsonNumber → JsonNumber → Bool
  | .integer m, .integer n => m == n
  | .float x, .float y => x.sameValue y
  | _, _ => false

/-- A magnitude other than zero, from its shortest digits: positional while the point stands
within the first sixteen digits or at most four zeros before them, with a signed exponent
beyond. -/
def renderDigits (digits : List Char) (place : Int) : List Char :=
  let point : Int := digits.length + place
  if 0 ≤ place ∧ point ≤ 16 then digits ++ List.replicate place.toNat '0' ++ ['.', '0']
  else if 0 < point ∧ point ≤ 16 then digits.take point.toNat ++ '.' :: digits.drop point.toNat
  else if -5 < point ∧ point ≤ 0 then '0' :: '.' :: List.replicate (-point).toNat '0' ++ digits
  else
    let e := point - 1
    let mantissa := match digits with
      | c :: d :: ds => c :: '.' :: d :: ds
      | ds => ds
    mantissa ++ 'e' :: (if e < 0 then '-' else '+') :: decimalDigits e.natAbs

def render : JsonNumber → List Char
  | .integer n => (if n < 0 then ['-'] else []) ++ decimalDigits n.natAbs
  | .float x =>
    (if x.negative then ['-'] else []) ++
      if x.significand = 0 then "0.0".toList
      else
        let (digits, place) := x.shortest
        renderDigits digits place

end JsonNumber

end SchemaEvolution
