import SchemaEvolution.Rename.Resolution
import SchemaEvolution.Text.Blank
import SchemaEvolution.Text.Split

/-!
# Resolvers

A resolver answers offers of tables, of the columns of a table, and of views. It may do so in any
monad, for instance by asking, and it may fail with a reason. `Resolver.never` takes nothing for
renamed; `RenameTable.resolver` knows renames beforehand.
-/

namespace SchemaEvolution

open Text

/-- Answers offers, or fails with a reason. -/
structure Resolver (m : Type → Type) where
  tables : Offer Table → m (Except String (Resolution Table))
  /-- Columns are offered table by table. -/
  columns : String → Offer Column → m (Except String (Resolution Column))
  views : Offer View → m (Except String (Resolution View))

/-- Takes nothing for renamed. -/
def Resolver.never {m : Type → Type} [Monad m] : Resolver m where
  tables o := pure (.ok (.unchanged o))
  columns _ o := pure (.ok (.unchanged o))
  views o := pure (.ok (.unchanged o))

/-! ## Known renames -/

/-- Pairs of an old and a new name, in order. A column is named with its table, `table.column`. -/
structure RenameTable where
  pairs : List (String × String) := []
deriving DecidableEq, Repr

namespace RenameTable

/-- The names in an entry `old->new`, without blanks around them. -/
def parsePair? (entry : String) : Option (String × String) :=
  (cutAt ['-', '>'] entry.toList).bind fun (old, new) =>
    if trim old = [] ∨ trim new = [] then none
    else some (String.ofList (trim old), String.ofList (trim new))

/-- The faults of entries in a list, starting at a position. -/
def entryFaults (i : Nat) : List String → List Fault
  | [] => []
  | entry :: entries =>
    (if (parsePair? entry).isSome then [] else [⟨Fault.rowPath "renames" i, "'old->new'"⟩]) ++
      entryFaults (i + 1) entries

/-- The renames of entries `old->new`. -/
def ofEntries (entries : List String) : Except Error RenameTable :=
  match entryFaults 0 entries with
  | [] => .ok ⟨entries.filterMap parsePair?⟩
  | faults => .error (.invalid faults)

/-- One more renaming, after the others. -/
def add (t : RenameTable) (old new : String) : RenameTable :=
  ⟨t.pairs ++ [(old, new)]⟩

def entries (t : RenameTable) : List String :=
  t.pairs.map fun (old, new) => old ++ "->" ++ new

/-- The first row with a name, and the others. -/
def pick? {α : Type} (name : α → String) (s : String) : List α → Option (α × List α)
  | [] => none
  | x :: xs =>
    if name x = s then some (x, xs) else (pick? name s xs).map fun (y, ys) => (y, x :: ys)

/-- Applies one renaming if both of its names are on offer. -/
def applyPair {α : Type} (name : α → String) (r : Resolution α) (pair : String × String) :
    Resolution α :=
  match pick? name pair.1 r.deleted, pick? name pair.2 r.created with
  | some (old, deleted), some (new, created) => ⟨created, deleted, r.renamed ++ [⟨old, new⟩]⟩
  | _, _ => r

/-- Applies the renames to an offer, one after the other. -/
def resolve {α : Type} (t : RenameTable) (name : α → String) (o : Offer α) : Resolution α :=
  t.pairs.foldl (applyPair name) (.unchanged o)

/-- Takes exactly the known renames that are on offer. -/
def resolver {m : Type → Type} [Monad m] (t : RenameTable) : Resolver m where
  tables o := pure (.ok (t.resolve (·.name) o))
  columns _ o := pure (.ok (t.resolve Column.path o))
  views o := pure (.ok (t.resolve (·.name) o))

end RenameTable

end SchemaEvolution
