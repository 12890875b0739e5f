import SchemaEvolution.Text.Blank
import SchemaEvolution.Text.Digit

/-!
# Instants

Texts of dates and times stand for instants, counted in days, seconds and nanoseconds. Accepted
are a date and a time with an offset from universal time (`Instant.withOffset`, strict), and
without one a date and a time, a date alone (midnight), and a time alone (on the first day of
1970); these are lenient: numbers need no leading zeros, blanks may stand before a number, and a
year with a sign may have any number of digits. A sixtieth second is kept apart from the next
minute.
-/

namespace SchemaEvolution.Sql

open Text

/-- An instant: a day, counted in the proleptic calendar, and the time on it. A leap second is
second 59 with a billion nanoseconds or more. -/
structure Instant where
  day : Int
  second : Nat
  nano : Nat
deriving DecidableEq, Repr

namespace Instant

/-- A part of an instant that is read off the front of a text, and what follows it. -/
abbrev Reader (α : Type) := List Char → Option (α × List Char)

/-- The character that must come next. -/
def exactly (c : Char) : Reader Unit
  | d :: r => if c = d then some ((), r) else none
  | [] => none

/-- A number of at least `least` and at most `most` digits. -/
def number (least most : Nat) : Reader Nat := fun cs =>
  let ds := (cs.take most).takeWhile Char.isDigit
  if ds.length < least then none else some (digitsValue ds, cs.drop ds.length)

/-- A number of one or two digits after blanks. -/
def shortNumber : Reader Nat := fun cs =>
  number 1 2 (trimStart cs)

/-- A year after blanks: four digits at most, or any number of them after a sign. -/
def year : Reader Int := fun cs =>
  match trimStart cs with
  | '-' :: r => (number 1 r.length r).map fun (n, r) => (-(n : Int), r)
  | '+' :: r => (number 1 r.length r).map fun (n, r) => ((n : Int), r)
  | cs => (number 1 4 cs).map fun (n, r) => ((n : Int), r)

/-- The nanoseconds after a point, if there is one; digits after the ninth are passed over. -/
def fraction : Reader Nat := fun cs =>
  match cs with
  | '.' :: r =>
    (number 1 9 r).map fun (n, rest) =>
      (n * Nat.pow 10 (9 - (r.length - rest.length)), rest.dropWhile Char.isDigit)
  | _ => some (0, cs)

/-! ## Dates -/

def isLeapYear (y : Int) : Bool :=
  y % 4 == 0 && (y % 100 != 0 || y % 400 == 0)

def daysInMonth (y : Int) (m : Nat) : Nat :=
  if m = 2 then (if isLeapYear y then 29 else 28)
  else if m = 4 ∨ m = 6 ∨ m = 9 ∨ m = 11 then 30
  else 31

/-- The years that dates may have. -/
def yearInRange (y : Int) : Bool :=
  -262143 ≤ y && y ≤ 262142

/-- The number of a day, counted from the first of March of year zero. -/
def dayNumber (y : Int) (m d : Nat) : Int :=
  let y := if m ≤ 2 then y - 1 else y
  let m := (m + 9) % 12
  365 * y + y / 4 - y / 100 + y / 400 + (((153 * m + 2) / 5 + d - 1 : Nat) : Int)

/-- The day of a calendar date, if there is such a date. -/
def day? (y : Int) (m d : Nat) : Option Int :=
  if yearInRange y ∧ 1 ≤ m ∧ m ≤ 12 ∧ 1 ≤ d ∧ d ≤ daysInMonth y m then some (dayNumber y m d)
  else none

/-- The second of a day and the nanosecond, if there is such a time. -/
def time? (h m s nano : Nat) : Option (Nat × Nat) :=
  if h < 24 ∧ m < 60 ∧ s ≤ 60 then
    if s = 60 then some (h * 3600 + m * 60 + 59, nano + 1000000000)
    else some (h * 3600 + m * 60 + s, nano)
  else none

/-- A lenient date. -/
def date : Reader Int := fun cs => do
  let (y, cs) ← year cs
  let ((), cs) ← exactly '-' cs
  let (m, cs) ← shortNumber cs
  let ((), cs) ← exactly '-' cs
  let (d, cs) ← shortNumber cs
  let day ← day? y m d
  return (day, cs)

/-- A lenient time. -/
def time : Reader (Nat × Nat) := fun cs => do
  let (h, cs) ← shortNumber cs
  let ((), cs) ← exactly ':' cs
  let (m, cs) ← shortNumber cs
  let ((), cs) ← exactly ':' cs
  let (s, cs) ← shortNumber cs
  let (nano, cs) ← fraction cs
  let time ← time? h m s nano
  return (time, cs)

/-! ## Texts -/

/-- What a whole text stands for. -/
def whole {α : Type} (r : Reader α) (cs : List Char) : Option α :=
  match r cs with
  | some (x, []) => some x
  | _ => none

/-- The instant of a day and a time. -/
def onDay (day : Int) (time : Nat × Nat) : Instant :=
  ⟨day, time.1, time.2⟩

/-- A date and a time, with any blanks or with the letter `T` between them. -/
def dateTime : Reader Instant := fun cs => do
  let (day, cs) ← date cs
  let (time, cs) ← match cs with
    | 'T' :: r => time r
    | _ => time (trimStart cs)
  return (onDay day time, cs)

/-- Seconds east of universal time: a letter `Z`, or a sign, hours and minutes. -/
def offset : Reader Int := fun cs =>
  match cs with
  | [] => none
  | c :: r => do
    if c = 'Z' ∨ c = 'z' then return (0, r)
    let sign : Int ← if c = '+' then some 1 else if c = '-' ∨ c = '−' then some (-1) else none
    let (h, r) ← number 2 2 r
    let ((), r) ← exactly ':' r
    let (m, r) ← number 2 2 r
    if h < 24 ∧ m < 60 then return (sign * (h * 3600 + m * 60), r) else none

/-- A date and a time in full with an offset; the instant is in universal time. -/
def withOffset : Reader Instant := fun cs => do
  let (y, cs) ← number 4 4 cs
  let ((), cs) ← exactly '-' cs
  let (m, cs) ← number 2 2 cs
  let ((), cs) ← exactly '-' cs
  let (d, cs) ← number 2 2 cs
  let cs ← match cs with
    | c :: r => if c = 'T' ∨ c = 't' ∨ c = ' ' then some r else none
    | [] => none
  let (h, cs) ← number 2 2 cs
  let ((), cs) ← exactly ':' cs
  let (min, cs) ← number 2 2 cs
  let ((), cs) ← exactly ':' cs
  let (s, cs) ← number 2 2 cs
  let (nano, cs) ← fraction cs
  let (east, cs) ← offset cs
  let day ← day? y m d
  let (second, nano) ← time? h min s nano
  let universal : Int := second - east
  return (⟨day + universal / 86400, (universal % 86400).toNat, nano⟩, cs)

/-- The first day of 1970. -/
def epochDay : Int := dayNumber 1970 1 1

/-- The instant that a text stands for. Blanks around it and letters `Z` at its end do not
matter. -/
def ofChars? (raw : List Char) : Option Instant :=
  let cs := ((trim raw).reverse.dropWhile (· == 'Z')).reverse
  whole withOffset cs <|> whole dateTime cs <|>
    (whole date cs).map (onDay · (0, 0)) <|> (whole time cs).map (onDay epochDay)

end Instant

end SchemaEvolution.Sql
