import SchemaEvolution.Error
import SchemaEvolution.Schema.Collection
import SchemaEvolution.Schema.Query

/-!
# Stores

A store keeps the rows of one kind in the order in which they were inserted, and beside them the
position of every key, so that a row is found without a search. Nothing in its type forces the two
to agree: every operation has to see to it. A row that is inserted adds a position, an update
makes the positions anew while it looks for keys that would stand twice, and a deletion makes them
anew from the rows that are left.
-/

namespace SchemaEvolution

/-! ## Positions -/

/-- Positions of keys. Of two positions for one key the first one counts. -/
abbrev Positions := List (Key × Nat)

namespace Positions

/-- The position of a key. -/
def find? (p : Positions) (key : Key) : Option Nat :=
  p.lookup key

/-- Notes the position of a key, in place of the one that it may have. -/
def note (p : Positions) (key : Key) (i : Nat) : Positions :=
  (key, i) :: p

/-- Notes the positions of keys in a row, the first of which is `i`. -/
def noteAll (p : Positions) (i : Nat) : List Key → Positions
  | [] => p
  | key :: keys => (p.note key i).noteAll (i + 1) keys

/-- Notes the positions of keys in a row, the first of which is `i`, unless one of them has a
position already. -/
def noteNew (p : Positions) (i : Nat) : List Key → Except Key Positions
  | [] => .ok p
  | key :: keys =>
    if (p.find? key).isSome then .error key else (p.note key i).noteNew (i + 1) keys

end Positions

/-! ## Stores -/

/-- Rows of one kind and the positions of their keys. -/
structure Store (α : Type) where
  rows : List α
  positions : Positions

/-- What has become of a row that was to be inserted. -/
inductive Inserted (α : Type) where
  | stored (row : α)
  /-- The key is taken; `row` is what stands at its position. -/
  | taken (row : Option α)
deriving DecidableEq, Repr

namespace Store

def empty {α : Type} : Store α := ⟨[], []⟩

variable {α : Type} [Row α]

def get? (s : Store α) (key : Key) : Option α :=
  (s.positions.find? key).bind fun i => s.rows[i]?

def hasKey (s : Store α) (key : Key) : Bool :=
  (s.positions.find? key).isSome

/-- Inserts a row after the others, unless its key is taken. -/
def insert (s : Store α) (row : α) : Inserted α × Store α :=
  match s.positions.find? (Row.key row) with
  | some i => (.taken s.rows[i]?, s)
  | none =>
    (.stored row, ⟨s.rows ++ [row], s.positions.note (Row.key row) s.rows.length⟩)

/-- The positions of the selected rows. -/
def selected (s : Store α) (selects : α → Bool) : List Nat :=
  (s.rows.zipIdx.filter fun p => selects p.1).map (·.2)

/-- Changes the rows at some positions and lists their new forms. Two rows under one key make it
fail, and then nothing is changed. -/
def commit (s : Store α) (change : α → α) (targets : List Nat) :
    Except KeyClash (List α) × Store α :=
  if targets.isEmpty then (.ok [], s)
  else
    let rows := targets.foldl (fun rows i => rows.modify i change) s.rows
    match Positions.noteNew [] 0 (rows.map Row.key) with
    | .error key => (.error (.update (Row.kind α) key), s)
    | .ok positions => (.ok (targets.filterMap fun i => rows[i]?), ⟨rows, positions⟩)

/-- Whether two stores hold the same rows, in whatever order. Every row of the one is looked up in
the other. -/
def sameRows [DecidableEq α] (s t : Store α) : Bool :=
  s.rows.length = t.rows.length && s.rows.all fun row => t.get? (Row.key row) = some row

section

variable {κ φ : Type} {ν : φ → Type} [Attributed α φ ν] [Fielded α κ]

/-- Assigns new values to the selected rows. -/
def updateIf (s : Store α) (set : Assignment κ ν) (selects : α → Bool) :
    Except KeyClash (List α) × Store α :=
  s.commit set.apply (s.selected selects)

/-- Assigns new values to the rows that are as asked. -/
def update (s : Store α) (set : Assignment κ ν) (filter : Filter κ ν) :
    Except KeyClash (List α) × Store α :=
  s.commit set.apply (s.selected filter.selects)

/-- Removes the rows that are as asked, and lists them. -/
def delete (s : Store α) (filter : Filter κ ν) : List α × Store α :=
  let (removed, kept) := s.rows.partition filter.selects
  (removed, ⟨kept, Positions.noteAll [] 0 (kept.map Row.key)⟩)

end

end Store

end SchemaEvolution
