import SchemaEvolution.Rename.Resolver
import SchemaEvolution.Text.Digit

/-!
# Asking for renames

After the known renames, each row that is still created is put to the user, who answers with the
number of the deleted row that it renames, or with zero. Lines that are no answer are passed
over; an empty line is zero. The questions are asked in any monad; `fromLines` answers them from
lines that are given beforehand.
-/

namespace SchemaEvolution

open Text

namespace Prompt

/-- A choice that is put to the user: what a created row is, a name for its kind, and the deleted
rows that it may rename. -/
structure Question where
  what : String
  created : String
  deleted : List String

/-- The lines in which a choice is put. -/
def Question.lines (q : Question) : List String :=
  ["Is " ++ q.what ++ " \x60" ++ q.created ++ "\x60 created or renamed from another " ++ q.what ++
      "?",
    "  0) create"] ++
    q.deleted.zipIdx.map fun (old, i) =>
      "  " ++ toString (i + 1) ++ ") rename \x60" ++ old ++ "\x60 -> \x60" ++ q.created ++ "\x60"

/-- A number without a sign, or with a plus sign, of at most 64 bits. -/
def number? (cs : List Char) : Option Nat :=
  let ds := match cs with
    | '+' :: r => r
    | _ => cs
  let n := digitsValue ds
  if ds ≠ [] ∧ ds.all Char.isDigit ∧ n < Nat.pow 2 64 then some n else none

/-- The number that a line answers, out of zero to `most`. -/
def answer? (most : Nat) (line : String) : Option Nat :=
  let cs := trim line.toList
  if cs = [] then some 0 else (number? cs).filter (· ≤ most)

/-- Why a question stays open. -/
def inputClosed : String :=
  "input closed before the rename prompt was answered"

/-- Puts the created rows of a resolution to the user, one after the other, as long as there are
deleted rows to choose from. -/
def choose {m : Type → Type} [Monad m] {α : Type} (ask : Question → m (Except String Nat))
    (what : String) (name : α → String) (deleted : List α) :
    List α → m (Except String (Resolution α))
  | [] => pure (.ok ⟨[], deleted, []⟩)
  | row :: rows => do
    if deleted.isEmpty then return .ok ⟨row :: rows, deleted, []⟩
    match ← ask ⟨what, name row, deleted.map name⟩ with
    | .error reason => return .error reason
    | .ok n =>
      match n, deleted[n - 1]? with
      | n + 1, some old =>
        let rest ← choose ask what name (deleted.eraseIdx n) rows
        return rest.map fun r => { r with renamed := ⟨old, row⟩ :: r.renamed }
      | _, _ =>
        let rest ← choose ask what name deleted rows
        return rest.map fun r => { r with created := row :: r.created }

/-- Completes a resolution by asking. -/
def complete {m : Type → Type} [Monad m] {α : Type} (ask : Question → m (Except String Nat))
    (what : String) (name : α → String) (r : Resolution α) : m (Except String (Resolution α)) := do
  let rest ← choose ask what name r.deleted r.created
  return rest.map fun s => { s with renamed := r.renamed ++ s.renamed }

/-- Takes the known renames that are on offer, and asks about the other rows. -/
def resolver {m : Type → Type} [Monad m] (ask : Question → m (Except String Nat))
    (known : RenameTable) : Resolver m where
  tables o := complete ask "table" (·.name) (known.resolve (·.name) o)
  columns table o :=
    complete ask ("column of \x60" ++ table ++ "\x60") (·.name) (known.resolve Column.path o)
  views o := complete ask "view" (·.name) (known.resolve (·.name) o)

/-! ## Answers from lines -/

/-- The first line that is an answer, and the lines after it. -/
def nextAnswer? (most : Nat) : List String → Option (Nat × List String)
  | [] => none
  | line :: lines =>
    match answer? most line with
    | some n => some (n, lines)
    | none => nextAnswer? most lines

/-- Answers a question from the lines that are left. -/
def fromLines (q : Question) : StateM (List String) (Except String Nat) := fun lines =>
  match nextAnswer? q.deleted.length lines with
  | some (n, rest) => (.ok n, rest)
  | none => (.error inputClosed, [])

def linesOf (text : String) : List String :=
  let lines := (text.toList.splitOn '\n').map String.ofList
  if lines.getLast? = some "" then lines.dropLast else lines

end Prompt

end SchemaEvolution
