import SchemaEvolution.Schema.Catalog
import SchemaEvolution.Schema.Shape

/-!
# Loading catalogs from documents

Rows come from a document in three steps, and each step is taken only if the one before found
nothing wrong: the shape of every row is examined, every row is read, and the rows are put into a
catalog.
-/

namespace SchemaEvolution.Catalog

/-- Reads the rows of a document. -/
def readEntities (rows : List Json) : Except Error (List Entity) :=
  match rows.mapM (ofJson? (α := Entity)) with
  | some es => .ok es
  | none => .error .unreadable

/-- The catalog of the rows of a document. -/
def ofRows (rows : List Json) : Except Error Catalog :=
  match Shape.rowsFaults rowsField rows with
  | [] => (readEntities rows).bind ofEntities
  | faults => .error (.invalid faults)

/-- The catalog of the rows of a document, without any examination: a row whose key is taken is
left out. -/
def ofRowsLoose (rows : List Json) : Except Error Catalog :=
  (readEntities rows).map ofEntitiesLoose

end SchemaEvolution.Catalog
