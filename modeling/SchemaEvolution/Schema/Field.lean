import SchemaEvolution.Schema.Entity

/-!
# Fields

The fields of a row are the names that make up its key, and its attributes. Every field can be read
and written by itself, and a row is no more than its fields.
-/

namespace SchemaEvolution

/-! ## Names in keys -/

/-- The names `κ` that make up a key. -/
structure KeyNames (κ : Type) where
  /-- All names, in order. -/
  all : List κ
  mem_all : ∀ k, k ∈ all := by rintro ⟨⟩ <;> decide
  /-- The key that is made up of given names. -/
  key : (κ → String) → Key
  key_inj : ∀ f g, key f = key g → f = g

/-- The one name of a table or a view, or the table of a primary key. -/
inductive SingleName where
  | name
deriving DecidableEq, Repr

/-- A name within an owner, which is a table or a view. -/
inductive ScopedName where
  | owner
  | name
deriving DecidableEq, Repr

/-- Keys of one name. -/
def KeyNames.single : KeyNames SingleName where
  all := [.name]
  key f := .single (f .name)
  key_inj _ _ h := funext fun
    | .name => Key.single.inj h

/-- Keys of an owner and a name. -/
def KeyNames.scoped : KeyNames ScopedName where
  all := [.owner, .name]
  key f := .scoped (f .owner) (f .name)
  key_inj _ _ h := funext fun
    | .owner => (Key.scoped.inj h).1
    | .name => (Key.scoped.inj h).2

/-- The names in the keys of the rows `α`. -/
class Keyed (α : Type) (κ : outParam Type) where
  names : KeyNames κ
  get : κ → α → String
  set : κ → String → α → α

/-! ## Fields -/

/-- A field of a row: one of the names `κ` in its key, or one of the attributes `φ`. -/
inductive Field (κ φ : Type) where
  | key (k : κ)
  | attr (f : φ)
deriving DecidableEq, Repr

@[reducible] def Field.Value {κ φ : Type} (ν : φ → Type) : Field κ φ → Type
  | .key _ => String
  | .attr f => ν f

namespace Field

variable {α κ φ : Type} {ν : φ → Type} [Keyed α κ] [Attributed α φ ν]

/-- All fields of the rows of a kind: those of the key first, then the attributes. -/
def all (α : Type) {κ φ : Type} {ν : φ → Type} [Keyed α κ] [Attributed α φ ν] :
    List (Field κ φ) :=
  (Keyed.names α).all.map .key ++ (Attributed.all (α := α)).map .attr

def get : (f : Field κ φ) → α → f.Value ν
  | .key k, row => Keyed.get k row
  | .attr f, row => Attributed.get f row

/-- The row with another value of a field. -/
def set : (f : Field κ φ) → f.Value ν → α → α
  | .key k, x, row => Keyed.set k x row
  | .attr f, x, row => Attributed.set f x row

/-- How the values of a field are compared. -/
def decEq (α : Type) {κ φ : Type} {ν : φ → Type} [Attributed α φ ν] :
    (f : Field κ φ) → DecidableEq (f.Value ν)
  | .key _ => inferInstanceAs (DecidableEq String)
  | .attr f => Attributed.decEq (α := α) f

theorem mem_all (f : Field κ φ) : f ∈ all α := by
  cases f with
  | key k => simp [all, (Keyed.names α).mem_all k]
  | attr f => simp [all, Attributed.mem_all (α := α) f]

end Field

/-- Rows that are made up of their fields. -/
class Fielded (α : Type) (κ : outParam Type) {φ : outParam Type} {ν : outParam (φ → Type)}
    [Row α] [Attributed α φ ν] extends Keyed α κ where
  nodup_all : (Field.all α : List (Field κ φ)).Nodup := by decide
  get_set : ∀ (f : Field κ φ) x (row : α), f.get (f.set x row) = x := by
    rintro (⟨⟨⟩⟩ | ⟨⟨⟩⟩) _ _ <;> rfl
  get_set_of_ne : ∀ (f g : Field κ φ) x (row : α), g ≠ f → g.get (f.set x row) = g.get row := by
    rintro (⟨⟨⟩⟩ | ⟨⟨⟩⟩) (⟨⟨⟩⟩ | ⟨⟨⟩⟩) _ _ h <;> first | rfl | cases h rfl
  key_eq : ∀ row : α, ((Keyed.names α).key fun k => Keyed.get k row) = Row.key row := by
    intro row
    rfl
  ext : ∀ x y : α, (∀ f : Field κ φ, f.get x = f.get y) → x = y

/-! ## Kinds of rows -/

instance : Fielded Table SingleName where
  names := .single
  get _ t := t.name
  set _ x t := { t with name := x }
  ext x y h := by
    cases x
    cases y
    cases h (.key .name)
    rfl

instance : Fielded Column ScopedName where
  names := .scoped
  get
    | .owner, c => c.table
    | .name, c => c.name
  set
    | .owner, x, c => { c with table := x }
    | .name, x, c => { c with name := x }
  ext x y h := by
    cases x
    cases y
    cases h (.key .owner)
    cases h (.key .name)
    cases h (.attr .type)
    cases h (.attr .notNull)
    cases h (.attr .default)
    cases h (.attr .autoIncrement)
    cases h (.attr .onUpdateNow)
    cases h (.attr .charSet)
    cases h (.attr .collation)
    cases h (.attr .generated)
    rfl

instance : Fielded PrimaryKey SingleName where
  names := .single
  get _ k := k.table
  set _ x k := { k with table := x }
  ext x y h := by
    cases x
    cases y
    cases h (.key .name)
    cases h (.attr .name)
    cases h (.attr .nameExplicit)
    cases h (.attr .columns)
    rfl

instance : Fielded ForeignKey ScopedName where
  names := .scoped
  get
    | .owner, k => k.table
    | .name, k => k.name
  set
    | .owner, x, k => { k with table := x }
    | .name, x, k => { k with name := x }
  ext x y h := by
    cases x
    cases y
    cases h (.key .owner)
    cases h (.key .name)
    cases h (.attr .nameExplicit)
    cases h (.attr .columns)
    cases h (.attr .target)
    cases h (.attr .targetColumns)
    cases h (.attr .onUpdate)
    cases h (.attr .onDelete)
    rfl

instance : Fielded Index ScopedName where
  names := .scoped
  get
    | .owner, i => i.table
    | .name, i => i.name
  set
    | .owner, x, i => { i with table := x }
    | .name, x, i => { i with name := x }
  ext x y h := by
    cases x
    cases y
    cases h (.key .owner)
    cases h (.key .name)
    cases h (.attr .nameExplicit)
    cases h (.attr .parts)
    cases h (.attr .isUnique)
    cases h (.attr .dataStructure)
    cases h (.attr .algorithm)
    cases h (.attr .lock)
    rfl

instance : Fielded Check ScopedName where
  names := .scoped
  get
    | .owner, c => c.table
    | .name, c => c.name
  set
    | .owner, x, c => { c with table := x }
    | .name, x, c => { c with name := x }
  ext x y h := by
    cases x
    cases y
    cases h (.key .owner)
    cases h (.key .name)
    cases h (.attr .nameExplicit)
    cases h (.attr .value)
    rfl

instance : Fielded View SingleName where
  names := .single
  get _ v := v.name
  set _ x v := { v with name := x }
  ext x y h := by
    cases x
    cases y
    cases h (.key .name)
    cases h (.attr .definition)
    cases h (.attr .algorithm)
    cases h (.attr .sqlSecurity)
    cases h (.attr .withCheckOption)
    rfl

instance : Fielded ViewColumn ScopedName where
  names := .scoped
  get
    | .owner, c => c.view
    | .name, c => c.name
  set
    | .owner, x, c => { c with view := x }
    | .name, x, c => { c with name := x }
  ext x y h := by
    cases x
    cases y
    cases h (.key .owner)
    cases h (.key .name)
    cases h (.attr .type)
    cases h (.attr .notNull)
    rfl

end SchemaEvolution
