import SchemaEvolution.Proofs.KnownRenames

/-!
# Requests and exchanges

A resolver is asked about tables, about the columns of a table or about views. `Request` is a
question of any of these sorts, and `Exchange` a request with what came of it.

**Renames that are known beforehand answer every request** with what accounts for it
(`Resolver.accepts_known`), whatever the table of renames is and however often a key is on
offer. So does who takes nothing for renamed (`Resolver.accepts_never`).
-/

namespace SchemaEvolution

/-- What a resolver is asked. -/
inductive Request where
  | tables (o : Offer Table)
  | columns (table : String) (o : Offer Column)
  | views (o : Offer View)
deriving DecidableEq

namespace Request

/-- An answer to a request is about rows of its kind. -/
def Answer : Request → Type
  | tables _ => Resolution Table
  | columns _ _ => Resolution Column
  | views _ => Resolution View

/-- The answer passes. -/
def Accepts : (q : Request) → q.Answer → Prop
  | tables o, a => Resolution.verify o a = .ok ()
  | columns _ o, a => Resolution.verify o a = .ok ()
  | views o, a => Resolution.verify o a = .ok ()

end Request

/-- A request and what came of it. -/
structure Exchange where
  request : Request
  outcome : Except String request.Answer

namespace Resolver

variable {m : Type → Type}

def answer (r : Resolver m) : (q : Request) → m (Except String q.Answer)
  | .tables o => r.tables o
  | .columns table o => r.columns table o
  | .views o => r.views o

/-- Puts requests to a resolver, one after the other, whatever comes of them. -/
def exchanges [Monad m] (r : Resolver m) : List Request → m (List Exchange)
  | [] => pure []
  | q :: qs => do
    let outcome ← r.answer q
    let rest ← r.exchanges qs
    return ⟨q, outcome⟩ :: rest

/-! ## Answers without asking -/

variable [Monad m]

theorem accepts_never (q : Request) :
    ∃ a, (never : Resolver m).answer q = pure (.ok a) ∧ q.Accepts a := by
  cases q with
  | tables o | columns _ o | views o =>
    exact ⟨.unchanged o, rfl, (Resolution.accounts_unchanged o).verify⟩

theorem accepts_known (t : RenameTable) (q : Request) :
    ∃ a, (t.resolver : Resolver m).answer q = pure (.ok a) ∧ q.Accepts a := by
  cases q with
  | tables o => exact ⟨_, rfl, (t.accounts_resolve Table.name o).verify⟩
  | columns _ o => exact ⟨_, rfl, (t.accounts_resolve Column.path o).verify⟩
  | views o => exact ⟨_, rfl, (t.accounts_resolve View.name o).verify⟩

end Resolver

end SchemaEvolution
