import SchemaEvolution.Plan.Sql

/-!
# Renderers

A renderer writes statements of the kinds that it knows. A statement of another kind, or one that
the function for its kind declines, is passed over and its kind noted. `Renderer.mysql` has the
writer of each kind.
-/

namespace SchemaEvolution

/-- Functions that write statements, by kind. Each may decline a statement. -/
structure Renderer where
  function? : StatementKind → Option (Statement → Option (List String))

/-- What became of statements: the SQL of all of them, the SQL of each, and the kinds of those
that were passed over. -/
structure Rendered where
  sql : List String := []
  grouped : List (Statement × List String) := []
  unhandled : List StatementKind := []

namespace Renderer

/-- The renderer that knows no kind. -/
def empty : Renderer := ⟨fun _ => none⟩

/-- The renderer with a function for one more kind, or another function for a kind. -/
def register (r : Renderer) (kind : StatementKind) (f : Statement → Option (List String)) :
    Renderer :=
  ⟨fun k => if k = kind then some f else r.function? k⟩

def mysql : Renderer :=
  empty
  |>.register .createTable Writer.createTable
  |>.register .dropTable Writer.dropTable
  |>.register .renameTable Writer.renameTable
  |>.register .addColumn Writer.addColumn
  |>.register .dropColumn Writer.dropColumn
  |>.register .renameColumn Writer.renameColumn
  |>.register .alterColumn Writer.alterColumn
  |>.register .recreateColumn Writer.recreateColumn
  |>.register .createIndex Writer.createIndex
  |>.register .dropIndex Writer.dropIndex
  |>.register .createForeignKey Writer.createForeignKey
  |>.register .dropConstraint Writer.dropConstraint
  |>.register .createPrimaryKey Writer.createPrimaryKey
  |>.register .dropPrimaryKey Writer.dropPrimaryKey
  |>.register .createCheck Writer.createCheck
  |>.register .createView Writer.createView
  |>.register .alterView Writer.alterView
  |>.register .dropView Writer.dropView
  |>.register .renameView Writer.renameView

def handles (r : Renderer) (kind : StatementKind) : Bool :=
  (r.function? kind).isSome

/-- The kinds for which there is a function. -/
def handledKinds (r : Renderer) : List StatementKind :=
  (Word.all (α := StatementKind)).filter r.handles

/-- The SQL of one statement. -/
def render? (r : Renderer) (s : Statement) : Option (List String) :=
  (r.function? s.kind).bind fun f => f s

/-- Writes statements one after the other. -/
def render (r : Renderer) : List Statement → Rendered
  | [] => {}
  | s :: ss =>
    let rest := r.render ss
    match r.render? s with
    | some sql => { rest with sql := sql ++ rest.sql, grouped := (s, sql) :: rest.grouped }
    | none => { rest with unhandled := s.kind :: rest.unhandled }

end Renderer

/-! ## The text of a migration -/

/-- The line between statements at which a tool that runs a migration may stop. -/
def breakpoint : String :=
  "--> statement-breakpoint"

/-- The text of a migration: its SQL line by line, with breakpoints or without. -/
def migrationText (breakpoints : Bool) (sql : List String) : String :=
  (if breakpoints then "\n" ++ breakpoint ++ "\n" else "\n").intercalate sql

end SchemaEvolution
