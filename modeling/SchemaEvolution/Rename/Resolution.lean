import SchemaEvolution.Error
import SchemaEvolution.Schema.Entity

/-!
# Renames

What disappears on one side and what appears on the other may be the same thing under a new name.
The rows that have no match are offered to a resolver, which answers with a `Resolution`: each
row stays created or deleted, or is a side of a renaming. An answer is accepted if it accounts
for every row that was offered, once, and for no other (`Resolution.verify`).
-/

namespace SchemaEvolution

/-- A row that keeps its identity under a new key. -/
structure Renaming (α : Type) where
  old : α
  new : α
deriving DecidableEq, Repr

instance {α : Type} [JsonForm α] : Record (Renaming α) where
  fields := ["from", "to"]
  toMembers r := [("from", toJson r.old), ("to", toJson r.new)]
  ofGiven? g := do return { old := ← g.required? "from", new := ← g.required? "to" }

/-- The rows of a kind that have no match on the other side. -/
structure Offer (α : Type) where
  created : List α
  deleted : List α
deriving DecidableEq

def Offer.isEmpty {α : Type} (o : Offer α) : Bool :=
  o.created.isEmpty && o.deleted.isEmpty

/-- What becomes of the rows of an offer. -/
structure Resolution (α : Type) where
  created : List α
  deleted : List α
  renamed : List (Renaming α)

instance {α : Type} [JsonForm α] : Record (Resolution α) where
  fields := ["created", "deleted", "renamed"]
  toMembers r := [("created", toJson r.created), ("deleted", toJson r.deleted),
    ("renamed", toJson r.renamed)]
  ofGiven? g := do
    return {
      created := ← g.optional? "created" []
      deleted := ← g.optional? "deleted" []
      renamed := ← g.optional? "renamed" [] }

namespace Resolution

variable {α : Type}

/-- Every row stays what it is. -/
def unchanged (o : Offer α) : Resolution α :=
  ⟨o.created, o.deleted, []⟩

variable [Row α]

/-- Takes keys off a list of pending keys, one occurrence each; fails with the first key that is
not pending. -/
def take (pending : List Key) : List Key → Except Key (List Key)
  | [] => .ok pending
  | k :: ks => if k ∈ pending then take (pending.erase k) ks else .error k

/-- The keys of the rows that an answer takes as created, on either side of a renaming. -/
def createdKeys (r : Resolution α) : List Key :=
  (r.created ++ r.renamed.map (·.new)).map Row.key

/-- The keys of the rows that an answer takes as deleted, on either side of a renaming. -/
def deletedKeys (r : Resolution α) : List Key :=
  (r.deleted ++ r.renamed.map (·.old)).map Row.key

/-- Whether an answer accounts for every row of an offer once and for no other. -/
def verify (o : Offer α) (r : Resolution α) : Except Breach Unit := do
  let created ← (take (o.created.map Row.key) r.createdKeys).mapError .notCreated
  let deleted ← (take (o.deleted.map Row.key) r.deletedKeys).mapError .notDeleted
  match created.eraseDups ++ deleted.eraseDups with
  | [] => .ok ()
  | keys => .error (.unanswered keys)

end Resolution

/-- The renames of a whole run. -/
structure Renames where
  tables : List (Renaming Table) := []
  columns : List (Renaming Column) := []
  views : List (Renaming View) := []
deriving DecidableEq

/-- A column with its table. -/
def Column.path (c : Column) : String :=
  c.table ++ "." ++ c.name

/-- The renames as entries `old->new`, columns with their tables. -/
def Renames.entries (r : Renames) : List String :=
  r.tables.map (fun t => t.old.name ++ "->" ++ t.new.name) ++
    r.columns.map (fun c => c.old.path ++ "->" ++ c.new.path) ++
    r.views.map (fun v => v.old.name ++ "->" ++ v.new.name)

end SchemaEvolution
