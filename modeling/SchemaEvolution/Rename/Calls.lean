import SchemaEvolution.Rename.Resolver

/-!
# Calls of a resolver

A record of what a resolver was asked: the sort of rows and the keys on offer.
`Resolver.recorded` keeps that record in a state, call after call; the answers stay the same.
-/

namespace SchemaEvolution

/-- The rows that a call is about. -/
inductive Subject where
  | tables
  | columns (table : String)
  | views
deriving DecidableEq, Repr

/-- A call of a resolver. -/
structure Call where
  subject : Subject
  created : List Key
  deleted : List Key
deriving DecidableEq, Repr

/-- The call for an offer. -/
def Call.ofOffer {α : Type} [Row α] (subject : Subject) (o : Offer α) : Call :=
  ⟨subject, o.created.map Row.key, o.deleted.map Row.key⟩

namespace Resolver

variable {m : Type → Type} [Monad m]

/-- Notes a call before it is answered. -/
def noting {α : Type} [Row α] (subject : Subject) (o : Offer α)
    (answer : m (Except String (Resolution α))) :
    StateT (List Call) m (Except String (Resolution α)) := do
  modify fun calls => calls ++ [Call.ofOffer subject o]
  answer

/-- The resolver with a record of its calls. -/
def recorded (r : Resolver m) : Resolver (StateT (List Call) m) where
  tables o := noting .tables o (r.tables o)
  columns table o := noting (.columns table) o (r.columns table o)
  views o := noting .views o (r.views o)

end Resolver

end SchemaEvolution
