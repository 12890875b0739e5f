import SchemaEvolution.Comparison.Prune
import SchemaEvolution.Plan.Renderer
import SchemaEvolution.Plan.Schedule
import SchemaEvolution.Rename.Propagate
import SchemaEvolution.Rename.Resolver

/-!
# Migrations

A migration leads from a source schema to a target schema.

**Renames are settled first** (`settle`): tables, then the columns of each table that is on both
sides, then views. What has no match on the other side is offered to a resolver, if there is
something on both sides; accepted renames are carried through the catalogs before the next offer
is made.

**The rest is a function of the settled catalogs** (`Settled.plan`): their difference without
what makes none to the server, put into statements and written as SQL.
-/

namespace SchemaEvolution

/-! ## Settling renames -/

/-- The catalogs after renames have been carried through them, and the renames. -/
structure Settled where
  sides : Sides
  renames : Renames
deriving DecidableEq

/-- Carries renames through both catalogs. -/
def Sides.carry (e : SidesEdit Unit) (s : Sides) : Except Error Sides :=
  match e.run s with
  | (.ok (), sides) => .ok sides
  | (.error c, _) => .error (.clash c)

namespace Settled

variable {m : Type → Type} [Monad m]

/-- Asks about an offer and examines the answer. Nothing is asked if nothing is created or
nothing is deleted. -/
def answer {α : Type} [Row α] (ask : Offer α → m (Except String (Resolution α))) (o : Offer α) :
    ExceptT Error m (Resolution α) := do
  if o.created.isEmpty || o.deleted.isEmpty then return .unchanged o
  match ← ask o with
  | .error reason => throw (.unresolved (Row.kind α) reason)
  | .ok r =>
    match r.verify o with
    | .error b => throw (.inconsistent (Row.kind α) b)
    | .ok () => return r

/-- The offer of the rows that a difference creates and drops. -/
def offer {α φ : Type} {ν : φ → Type} (d : Difference α ν) : Offer α :=
  ⟨d.created, d.dropped⟩

def tables (r : Resolver m) (s : Sides) : ExceptT Error m (Resolution Table × Sides) := do
  let resolution ← answer r.tables (offer (s.source.tables.difference s.target.tables))
  let sides ← s.carry (Propagate.renameTables resolution.renamed)
  return (resolution, sides)

/-- The renames in groups of columns, one group after the other. -/
def renamedColumns (r : Resolver m) : List ColumnGroup → ExceptT Error m (List (Renaming Column))
  | [] => return []
  | g :: gs => do
    let resolution ← answer (r.columns g.table) ⟨g.created, g.dropped⟩
    let rest ← renamedColumns r gs
    return resolution.renamed ++ rest

/-- Settles the columns of all tables that are neither created nor dropped. -/
def columns (r : Resolver m) (tables : Resolution Table) (s : Sides) :
    ExceptT Error m (List (Renaming Column) × Sides) := do
  let d := s.source.columns.difference s.target.columns
  let groups := ColumnGroup.ofColumns d.created d.dropped tables.created tables.deleted
  let renamed ← renamedColumns r groups
  let sides ← s.carry (Propagate.renameColumns renamed)
  return (renamed, sides)

def views (r : Resolver m) (s : Sides) : ExceptT Error m (List (Renaming View) × Sides) := do
  let resolution ← answer r.views (offer (s.source.views.difference s.target.views))
  let sides ← s.carry (Propagate.renameViews resolution.renamed)
  return (resolution.renamed, sides)

end Settled

/-- Settles all renames between two catalogs. -/
def Sides.settle {m : Type → Type} [Monad m] (r : Resolver m) (s : Sides) :
    ExceptT Error m Settled := do
  let (tables, s) ← Settled.tables r s
  let (columns, s) ← Settled.columns r tables s
  let (views, s) ← Settled.views r s
  return ⟨s, ⟨tables.renamed, columns, views⟩⟩

/-! ## Planning -/

/-- How a migration is planned and written. -/
structure MigrationOptions where
  mode : Mode := .default
  /-- Whether the text of the migration has breakpoints. -/
  breakpoints : Bool := false

/-- A migration: its statements, their SQL, and the accepted renames as entries. -/
structure Migration where
  statements : List Statement
  rendered : Rendered
  renames : List String
  text : String

/-- What the plan between settled catalogs is made from. -/
def Settled.plan (mode : Mode) (s : Settled) : PlanInput :=
  let difference := s.sides.source.difference s.sides.target
  { source := s.sides.source
    target := s.sides.target
    difference
    alterations := difference.alterations.prune mode s.sides.source s.sides.target
    renames := s.renames }

namespace Migration

/-- The migration between settled catalogs. -/
def ofSettled (options : MigrationOptions) (s : Settled) : Migration :=
  let statements := (s.plan options.mode).statements
  let rendered := Renderer.mysql.render statements
  { statements
    rendered
    renames := s.renames.entries
    text := migrationText options.breakpoints rendered.sql }

def isEmpty (x : Migration) : Bool :=
  x.statements.isEmpty

/-- The migration from one catalog to another one. -/
def between {m : Type → Type} [Monad m] (r : Resolver m) (options : MigrationOptions)
    (source target : Catalog) : ExceptT Error m Migration := do
  return ofSettled options (← Sides.settle r ⟨source, target⟩)

end Migration

end SchemaEvolution
