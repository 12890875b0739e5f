import SchemaEvolution.Proofs.Entities
import SchemaEvolution.Proofs.ValidRows
import SchemaEvolution.Schema.Edit

/-!
# Catalogs from their own rows

A catalog lists its rows kind by kind. **Loading the rows of a catalog gives the catalog back**
(`Catalog.ofEntities_entities`), if each of them is valid.

**Loading goes part by part** (`Catalog.Loads`). A row of a kind touches the collection of its kind
only (`Part.Holds`), where it is refused if its key is taken and else goes to the end. The rows of a
collection have distinct keys, so none of them is refused, and their order is kept.
-/

namespace SchemaEvolution

namespace Collection

variable {α : Type} [Row α] {c : Collection α} {x : α} {rows : List α}

theorem hasKey_of_nodup (h : ((c.rows ++ x :: rows).map Row.key).Nodup) :
    c.hasKey (Row.key x) = false := by
  refine hasKey_eq_false_iff.2 fun y hy e => ?_
  rw [List.map_append] at h
  exact List.disjoint_of_nodup_append h (List.mem_map_of_mem hy) (e ▸ List.mem_cons_self ..)

theorem rows_insert_append (h : ((c.rows ++ x :: rows).map Row.key).Nodup) :
    (c.insert x).rows ++ rows = c.rows ++ x :: rows := by
  rw [rows_insert (hasKey_of_nodup h), List.append_assoc, List.singleton_append]

/-- **Rows with new keys go to the end in their order.** -/
theorem rows_foldl_insert (h : ((c.rows ++ rows).map Row.key).Nodup) :
    (rows.foldl insert c).rows = c.rows ++ rows := by
  induction rows generalizing c with
  | nil => exact (List.append_nil _).symm
  | cons x rows ih =>
    have hrows := rows_insert_append h
    rw [List.foldl_cons, ih (hrows ▸ h), hrows]

end Collection

/-- The part is the one that rows of a kind are put into and found in. -/
structure Part.Holds {α : Type} [Row α] (part : Part α) (toEntity : α → Entity) : Prop where
  insert : ∀ c x, c.insert (toEntity x) = part.set ((part.get c).insert x) c
  stored? : ∀ c x, c.stored? (toEntity x) = ((part.get c).get? (Row.key x)).map toEntity
  set_get : ∀ c, part.set (part.get c) c = c
  get_set : ∀ rows c, part.get (part.set rows c) = rows
  set_set : ∀ rows rows' c, part.set rows (part.set rows' c) = part.set rows c

namespace Part

theorem holds_tables : tables.Holds .table :=
  ⟨fun _ _ => rfl, fun _ _ => rfl, fun _ => rfl, fun _ _ => rfl, fun _ _ _ => rfl⟩

theorem holds_columns : columns.Holds .column :=
  ⟨fun _ _ => rfl, fun _ _ => rfl, fun _ => rfl, fun _ _ => rfl, fun _ _ _ => rfl⟩

theorem holds_primaryKeys : primaryKeys.Holds .primaryKey :=
  ⟨fun _ _ => rfl, fun _ _ => rfl, fun _ => rfl, fun _ _ => rfl, fun _ _ _ => rfl⟩

theorem holds_foreignKeys : foreignKeys.Holds .foreignKey :=
  ⟨fun _ _ => rfl, fun _ _ => rfl, fun _ => rfl, fun _ _ => rfl, fun _ _ _ => rfl⟩

theorem holds_indexes : indexes.Holds .index :=
  ⟨fun _ _ => rfl, fun _ _ => rfl, fun _ => rfl, fun _ _ => rfl, fun _ _ _ => rfl⟩

theorem holds_checks : checks.Holds .check :=
  ⟨fun _ _ => rfl, fun _ _ => rfl, fun _ => rfl, fun _ _ => rfl, fun _ _ _ => rfl⟩

theorem holds_views : views.Holds .view :=
  ⟨fun _ _ => rfl, fun _ _ => rfl, fun _ => rfl, fun _ _ => rfl, fun _ _ _ => rfl⟩

theorem holds_viewColumns : viewColumns.Holds .viewColumn :=
  ⟨fun _ _ => rfl, fun _ _ => rfl, fun _ => rfl, fun _ _ => rfl, fun _ _ _ => rfl⟩

end Part

namespace Catalog

variable {c d f : Catalog} {e : Entity} {es es' : List Entity} {i : Nat}

/-! ## Loading without a fault -/

/-- The rows are loaded into a catalog without a fault, which leads to another catalog. -/
structure Loads (c : Catalog) (es : List Entity) (d : Catalog) : Prop where
  faults : ∀ i, loadFaults c i es = []
  catalog : es.foldl Catalog.insert c = d

theorem Loads.nil : Loads c [] c :=
  ⟨fun _ => rfl, rfl⟩

theorem Loads.cons (hvalid : ∀ path, e.faults path = []) (hfree : c.stored? e = none)
    (h : Loads (c.insert e) es d) : Loads c (e :: es) d where
  faults i := by simp [loadFaults, hvalid, hfree, h.faults]
  catalog := h.catalog

theorem loadFaults_append :
    loadFaults c i (es ++ es') =
      loadFaults c i es ++ loadFaults (es.foldl insert c) (i + es.length) es' := by
  induction es generalizing c i with
  | nil => rfl
  | cons e es ih =>
    rw [List.cons_append, loadFaults, loadFaults, ih, List.foldl_cons, List.length_cons,
      Nat.add_right_comm, Nat.add_assoc, ← List.append_assoc]

theorem Loads.append (h : Loads c es d) (h' : Loads d es' f) : Loads c (es ++ es') f where
  faults i := by rw [loadFaults_append, h.faults, h.catalog, h'.faults]; rfl
  catalog := by rw [List.foldl_append, h.catalog, h'.catalog]

/-! ## Loading part by part -/

section

variable {α : Type} [Row α] {part : Part α} {toEntity : α → Entity}

theorem loads_foldl (hp : part.Holds toEntity) {rows : List α}
    (hvalid : ∀ x ∈ rows, ∀ path, (toEntity x).faults path = [])
    (hkeys : (((part.get c).rows ++ rows).map Row.key).Nodup) :
    Loads c (rows.map toEntity) (part.set (rows.foldl Collection.insert (part.get c)) c) := by
  induction rows generalizing c with
  | nil => exact (hp.set_get c).symm ▸ Loads.nil
  | cons x rows ih =>
    have hfree : c.stored? (toEntity x) = none := by
      rw [hp.stored?, Option.map_eq_none_iff]
      simpa [Collection.hasKey] using Collection.hasKey_of_nodup hkeys
    refine .cons (hvalid x (List.mem_cons_self ..)) hfree ?_
    have hget : part.get (c.insert (toEntity x)) = (part.get c).insert x := by
      rw [hp.insert, hp.get_set]
    have h := ih (c := c.insert (toEntity x)) (fun y hy => hvalid y (List.mem_cons_of_mem _ hy))
      (by rw [hget, Collection.rows_insert_append hkeys]; exact hkeys)
    rwa [hget, hp.insert, hp.set_set, ← hp.insert] at h

/-- **The rows of a collection are loaded into an empty part.** -/
theorem Loads.rows (h : Loads c es d) (hp : part.Holds toEntity) (xs : Collection α)
    (hvalid : ∀ x ∈ xs.rows, ∀ path, (toEntity x).faults path = [])
    (hempty : part.get d = .empty) : Loads c (es ++ xs.rows.map toEntity) (part.set xs d) := by
  have hxs : xs.rows.foldl Collection.insert (part.get d) = xs := by
    rw [hempty]
    exact Collection.ext_rows (Collection.rows_foldl_insert xs.keys_nodup)
  have hrows := loads_foldl hp (c := d) hvalid (by rw [hempty]; exact xs.keys_nodup)
  rw [hxs] at hrows
  exact h.append hrows

end

/-- The rows of a catalog are loaded into the empty one. -/
theorem Valid.loads (h : c.Valid) : Loads empty c.entities c := by
  -- With its collections laid open, the catalog is where the last step ends by definition.
  cases c
  exact Loads.nil
    |>.rows Part.holds_tables _ (fun x hx => h (.table x) (by simpa using hx)) rfl
    |>.rows Part.holds_columns _ (fun x hx => h (.column x) (by simpa using hx)) rfl
    |>.rows Part.holds_primaryKeys _ (fun x hx => h (.primaryKey x) (by simpa using hx)) rfl
    |>.rows Part.holds_foreignKeys _ (fun x hx => h (.foreignKey x) (by simpa using hx)) rfl
    |>.rows Part.holds_indexes _ (fun x hx => h (.index x) (by simpa using hx)) rfl
    |>.rows Part.holds_checks _ (fun x hx => h (.check x) (by simpa using hx)) rfl
    |>.rows Part.holds_views _ (fun x hx => h (.view x) (by simpa using hx)) rfl
    |>.rows Part.holds_viewColumns _ (fun x hx => h (.viewColumn x) (by simpa using hx)) rfl

/-- **Loading the rows of a catalog gives the catalog back.** -/
theorem ofEntities_entities (h : c.Valid) : ofEntities c.entities = .ok c := by
  rw [ofEntities, h.loads.faults, ofEntitiesLoose, h.loads.catalog]

end Catalog

end SchemaEvolution
