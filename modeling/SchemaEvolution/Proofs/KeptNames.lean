import SchemaEvolution.Proofs.Propagation

/-!
# Names that are kept

A foreign key or index of the target that has its default name takes over the name that the same row
has in the database.

**One row** (`Collection.keepName`): among the rows of a table, the one that has the default name of
`x` and no name of its own is called what `x` is called, if that name is free.

**Keeping names cannot fail** (`Propagate.returns_keepNames`), whatever the catalog is. At most one
row changes its name, and the new name is free.
-/

namespace SchemaEvolution

/-- Rows that are named within a table, by themselves or by default. -/
class Nameable (α : Type) [Row α] where
  table : α → String
  name : α → String
  isExplicit : α → Bool
  /-- The name that a row has by default, if there is one. -/
  default? : α → Option String
  /-- The row under another name. -/
  called : String → α → α
  key_eq : ∀ x, Row.key x = .scoped (table x) (name x)
  table_called : ∀ n x, table (called n x) = table x
  name_called : ∀ n x, name (called n x) = n
  isExplicit_called : ∀ n x, isExplicit (called n x) = isExplicit x
  default?_called : ∀ n x, default? (called n x) = default? x
  called_called : ∀ m n x, called m (called n x) = called m x
  called_name : ∀ x, called (name x) x = x

instance : Nameable ForeignKey where
  table := (·.table)
  name := (·.name)
  isExplicit := (·.nameExplicit)
  default? k := some k.defaultName
  called name k := { k with name }
  key_eq _ := rfl
  table_called _ _ := rfl
  name_called _ _ := rfl
  isExplicit_called _ _ := rfl
  default?_called _ _ := rfl
  called_called _ _ _ := rfl
  called_name _ := rfl

instance : Nameable Index where
  table := (·.table)
  name := (·.name)
  isExplicit := (·.nameExplicit)
  default? := (·.defaultName?)
  called name i := { i with name }
  key_eq _ := rfl
  table_called _ _ := rfl
  name_called _ _ := rfl
  isExplicit_called _ _ := rfl
  default?_called _ _ := rfl
  called_called _ _ _ := rfl
  called_name _ := rfl

namespace Nameable

variable {α : Type} [Row α] [Nameable α]

theorem key_called (n : String) (x : α) : Row.key (called n x) = .scoped (table x) n := by
  rw [key_eq, table_called, name_called]

/-- The name that a row has if it is declared anew. -/
def declaredName (x : α) : String :=
  if isExplicit x then name x else (default? x).getD (name x)

/-- The row as it is declared anew, with its default name if it has no name of its own. -/
def redeclared (x : α) : α :=
  called (declaredName x) x

theorem declaredName_of_isExplicit {x : α} (h : isExplicit x = true) : declaredName x = name x :=
  if_pos h

theorem declaredName_of_not_isExplicit {x : α} (h : isExplicit x = false) :
    declaredName x = (default? x).getD (name x) :=
  if_neg (by simp [h])

end Nameable

/-! ## One name -/

namespace Collection

open Nameable

variable {α : Type} [Row α] [Nameable α] {c : Collection α} {x t : α}

/-- Whether a row has the default name of `x` and is to take over the name that `x` has. -/
def takesName (c : Collection α) (x t : α) : Bool :=
  !isExplicit x && !c.hasKey (Row.key x) && !isExplicit t && table t == table x &&
    default? x == some (name t)

theorem takesName_iff : c.takesName x t = true ↔ isExplicit x = false ∧
    c.hasKey (Row.key x) = false ∧ isExplicit t = false ∧ table t = table x ∧
      default? x = some (name t) := by
  simp [takesName, and_assoc]

/-- The rows in which the default name of `x` has given way to the name of `x`. -/
def keptRow (c : Collection α) (x t : α) : α :=
  if c.takesName x t then called (name x) t else t

theorem key_keptRow_of_takesName (h : c.takesName x t = true) :
    Row.key (c.keptRow x t) = Row.key x := by
  rw [keptRow, if_pos h, key_called, key_eq, (takesName_iff.1 h).2.2.2.1]

/-- **The name that is taken over was free**, so keys stay apart. -/
theorem nodup_keptRow (c : Collection α) (x : α) :
    ((c.rows.map (c.keptRow x)).map Row.key).Nodup := by
  rw [List.map_map]
  refine List.Nodup.map_on (fun s hs t ht e => ?_) c.nodup_rows
  simp only [Function.comp_apply] at e
  have hfree {u v : α} (hu : c.takesName x u = true) (hv : v ∈ c.rows) : Row.key x ≠ Row.key v :=
    fun e => Collection.hasKey_eq_false_iff.1 (takesName_iff.1 hu).2.1 v hv e.symm
  cases hts : c.takesName x s with
  | false =>
    cases htt : c.takesName x t with
    | false =>
      simp only [keptRow, hts, htt, Bool.false_eq_true, if_false] at e
      exact eq_of_key_eq hs ht e
    | true =>
      rw [key_keptRow_of_takesName htt, keptRow, hts, if_neg Bool.false_ne_true] at e
      exact absurd e.symm (hfree htt hs)
  | true =>
    cases htt : c.takesName x t with
    | false =>
      rw [key_keptRow_of_takesName hts, keptRow, htt, if_neg Bool.false_ne_true] at e
      exact absurd e (hfree hts ht)
    | true =>
      -- Both rows have the default name of `x` in the same table.
      obtain ⟨-, -, -, hst, hsn⟩ := takesName_iff.1 hts
      obtain ⟨-, -, -, htt, htn⟩ := takesName_iff.1 htt
      refine eq_of_key_eq hs ht ?_
      rw [key_eq, key_eq, hst, htt, Option.some.inj (hsn.symm.trans htn)]

/-- Keeps the name of `x`. -/
def keepName (c : Collection α) (x : α) : Collection α :=
  ⟨c.rows.map (c.keptRow x), c.nodup_keptRow x⟩

/-- Keeps the names of rows, one after the other. -/
def keepNames (c : Collection α) (xs : List α) : Collection α :=
  xs.foldl keepName c

theorem keepName_eq_self (h : ∀ t ∈ c.rows, c.takesName x t = false) : c.keepName x = c := by
  refine ext_rows ((List.map_congr_left fun t ht => ?_).trans (List.map_id' _))
  rw [keptRow, h t ht, if_neg Bool.false_ne_true]

end Collection

/-! ## Edits -/

namespace Propagate

open Nameable

section

variable {α : Type} [Row α] [Nameable α] {c : Catalog} {x : α} {default : String}

/-- Keeps the name of a row whose default name is known. -/
def keepName (part : Part α) (x : α) (default : String) : Edit Unit := do
  let target ← get
  if isExplicit x || default == name x || (part.get target).hasKey (.scoped (table x) (name x)) then
    return
  if ((part.get target).get? (.scoped (table x) default)).any fun t => !isExplicit t then
    let _ ← Edit.update part (called (name x)) fun t => table t == table x && name t == default

/-- **Keeping a name succeeds**, and all that it does is to keep the name. -/
theorem returns_keepName (part : Part α) (hset : part.set (part.get c) c = c)
    (hd : default? x = some default) :
    Returns (keepName part x default) c () (part.set ((part.get c).keepName x) c) := by
  have hkey {t : α} (ht : (part.get c).takesName x t = true) :
      Row.key t = .scoped (table x) default := by
    obtain ⟨-, -, -, htable, hname⟩ := Collection.takesName_iff.1 ht
    rw [key_eq, htable, Option.some.inj (hd.symm.trans hname)]
  have hstay (h : ∀ t ∈ (part.get c).rows, (part.get c).takesName x t = false) :
      Returns (pure () : Edit Unit) c () (part.set ((part.get c).keepName x) c) := by
    rw [Collection.keepName_eq_self h, hset]
    exact returns_pure_iff.2 ⟨rfl, rfl⟩
  refine returns_bind_iff.2 ⟨c, c, rfl, ?_⟩
  split
  next hno =>
    refine hstay fun t ht => Bool.eq_false_iff.2 fun htakes => ?_
    obtain ⟨hexplicit, hfree, -⟩ := Collection.takesName_iff.1 htakes
    rw [key_eq] at hfree
    simp only [hexplicit, hfree, Bool.false_or, Bool.or_false, beq_iff_eq] at hno
    rw [← hno, ← hkey htakes, Collection.hasKey_key ht] at hfree
    cases hfree
  next hyes =>
    simp only [Bool.not_eq_true, Bool.or_eq_false_iff] at hyes
    obtain ⟨⟨hexplicit, -⟩, hfree⟩ := hyes
    have htakes_iff {t : α} : (part.get c).takesName x t = true ↔
        isExplicit t = false ∧ Row.key t = .scoped (table x) default := by
      rw [Collection.takesName_iff, key_eq x, key_eq t, hd]
      simp only [hexplicit, hfree, Key.scoped.injEq, Option.some.injEq, true_and]
      exact and_congr_right fun _ => and_congr_right fun _ => eq_comm
    split
    next hany =>
      obtain ⟨u, hu, himplicit⟩ := (Option.any_eq_true _ _).1 hany
      obtain ⟨hu, huk⟩ := Collection.get?_eq_some_iff.1 hu
      refine returns_bind_iff.2 ⟨_, _, returns_update_of ?_, returns_pure_iff.2 ⟨rfl, rfl⟩⟩
      refine List.map_congr_left fun t ht => ?_
      refine if_congr ?_ rfl rfl
      rw [htakes_iff, key_eq, Key.scoped.injEq, Bool.and_eq_true, beq_iff_eq, beq_iff_eq]
      refine and_iff_right_of_imp fun ⟨htt, htn⟩ => ?_
      rw [Collection.eq_of_key_eq ht hu (by rw [huk, key_eq, htt, htn])]
      simpa using himplicit
    next hnone =>
      refine hstay fun t ht => Bool.eq_false_iff.2 fun htakes => hnone ?_
      obtain ⟨himplicit, htk⟩ := htakes_iff.1 htakes
      exact (Option.any_eq_true _ _).2
        ⟨t, Collection.get?_eq_some_iff.2 ⟨ht, htk⟩, by simpa using himplicit⟩

theorem keepName_of_default?_eq_none {c : Collection α} (hd : default? x = none) :
    c.keepName x = c := by
  refine Collection.keepName_eq_self fun t _ => Bool.eq_false_iff.2 fun h => ?_
  rw [Collection.takesName_iff, hd] at h
  cases h.2.2.2.2

end

variable {c : Catalog}

theorem returns_keepForeignKeyName (k : ForeignKey) :
    Returns (keepForeignKeyName k) c () { c with foreignKeys := c.foreignKeys.keepName k } :=
  returns_keepName .foreignKeys rfl rfl

theorem returns_keepIndexName (i : Index) :
    Returns (keepIndexName i) c () { c with indexes := c.indexes.keepName i } := by
  unfold keepIndexName
  split
  next hnone =>
    rw [keepName_of_default?_eq_none hnone]
    exact returns_pure_iff.2 ⟨rfl, rfl⟩
  next hsome => exact returns_keepName .indexes rfl hsome

theorem returns_keepForeignKeyNames : ∀ {c : Catalog} (ks : List ForeignKey),
    Returns (ks.forM keepForeignKeyName) c () { c with foreignKeys := c.foreignKeys.keepNames ks }
  | _, [] => returns_pure_iff.2 ⟨rfl, rfl⟩
  | _, k :: ks =>
    returns_bind_iff.2 ⟨(), _, returns_keepForeignKeyName k, returns_keepForeignKeyNames ks⟩

theorem returns_keepIndexNames : ∀ {c : Catalog} (is : List Index),
    Returns (is.forM keepIndexName) c () { c with indexes := c.indexes.keepNames is }
  | _, [] => returns_pure_iff.2 ⟨rfl, rfl⟩
  | _, i :: is => returns_bind_iff.2 ⟨(), _, returns_keepIndexName i, returns_keepIndexNames is⟩

/-- **Keeping names succeeds**, and all that it does is to keep the names. -/
theorem returns_keepNames (c : Catalog) (ks : List ForeignKey) (is : List Index) :
    Returns (keepNames ks is) c () { c with
      foreignKeys := c.foreignKeys.keepNames ks
      indexes := c.indexes.keepNames is } :=
  returns_bind_iff.2 ⟨(), _, returns_keepForeignKeyNames ks, returns_keepIndexNames is⟩

end Propagate

end SchemaEvolution
