import SchemaEvolution.Schema.Attribute

/-!
# Tables
-/

namespace SchemaEvolution

/-- A table. What belongs to it refers to it by name. -/
structure Table where
  name : String
deriving DecidableEq, Repr

instance : Row Table where
  fields := ["name"]
  toMembers t := [("name", toJson t.name)]
  ofGiven? g := do return { name := ← g.required? "name" }
  kind := .tables
  key t := .single t.name
  describe t := "table " ++ named t.name
  faults path t := Fault.ofIdentifier path "name" t.name

/-- A table is its name: it has no attributes. -/
instance : Attributed Table Empty (fun _ => Empty) where
  all := []
  mem_all f := nomatch f
  name f := nomatch f
  get f _ := nomatch f
  set f _ _ := nomatch f
  decEq f := nomatch f
  form f := nomatch f

end SchemaEvolution
