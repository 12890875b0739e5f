import SchemaEvolution.Proofs.CarriedRenames

/-!
# Names that are restored step by step

A row without a name of its own has its default name in the database, and a rename changes what
that name is. Renames are carried out in steps, so on its way from the old to the new names a row
has default names that belong to neither side. The target starts with the new default names; in the
end every row of it shall have the name that it has in the database.

**What helps** (`Collection.Legible`): whatever part of the renames has been carried out, default
names tell the rows of the source apart.

**The invariant** (`Collection.Restored`): every row of the target has its new default name or the
name that it has in the database, and it has the latter if all that it lists has been renamed. A
step keeps the invariant (`Collection.Restored.step`), because it touches every row that it changes.
When the last step is done, all names are restored (`Collection.Restored.rows_eq`).
-/

namespace SchemaEvolution

open Nameable

/-- Rows with names, through which relabellings are carried. A relabelling leaves names alone. -/
class LabelledName (α : Type) [Row α] [Nameable α] [Labelled α] : Prop where
  table_relabel : ∀ (ρ : Relabelling) (x : α), table (relabel ρ x) = ρ.table (table x)
  name_relabel : ∀ (ρ : Relabelling) (x : α), name (relabel ρ x) = name x
  isExplicit_relabel : ∀ (ρ : Relabelling) (x : α), isExplicit (relabel ρ x) = isExplicit x

instance : LabelledName ForeignKey := ⟨fun _ _ => rfl, fun _ _ => rfl, fun _ _ => rfl⟩

instance : LabelledName Index := ⟨fun _ _ => rfl, fun _ _ => rfl, fun _ _ => rfl⟩

namespace Collection

open LabelledName

variable {α : Type} [Row α] [Nameable α] [Labelled α] [LabelledName α]

/-- The rows have their default names, and default names tell the rows apart, however much of a
relabelling has been carried out on either side. -/
structure Legible (c : Collection α) (ρ : Relabelling) (Partial : Relabelling → Prop) : Prop where
  none : Partial .none
  all : Partial ρ
  declared : ∀ x ∈ c.rows, declaredName x = name x
  table_inj : ∀ x ∈ c.rows, ∀ y ∈ c.rows, ρ.table (table x) = ρ.table (table y) → table x = table y
  unique : ∀ {σ τ : Relabelling}, Partial σ → Partial τ → ∀ x ∈ c.rows, ∀ y ∈ c.rows,
    isExplicit x = false → isExplicit y = false →
      default? (relabel σ x) = some (declaredName (relabel τ y)) → x = y

/-- The rows of `d` are the relabelled rows of `c` under certain names. Each of these names is the
one that the row has in `c`, or the one by which the relabelled row is declared. -/
structure Named (c d : Collection α) (ρ : Relabelling) (current : α → String) : Prop where
  rows : d.rows = c.rows.map fun x => called (current x) (relabel ρ x)
  current : ∀ x ∈ c.rows, current x = name x ∨ current x = declaredName (relabel ρ x)

/-- The rows of `d` are the relabelled rows of `c`. Where `σ` has done all that `ρ` does, they have
the names that they have in `c`. -/
def Restored (c d : Collection α) (ρ σ : Relabelling) : Prop :=
  ∃ current : α → String, Named c d ρ current ∧
    ∀ x ∈ c.rows, relabel σ x = relabel ρ x → current x = name x

variable {c d e : Collection α} {ρ σ τ : Relabelling} {Partial : Relabelling → Prop}
  {current : α → String} {x y : α}

theorem declaredName_relabel_of_isExplicit (h : isExplicit x = true) :
    declaredName (relabel ρ x) = name x := by
  rw [declaredName_of_isExplicit (by rw [isExplicit_relabel, h]), name_relabel]

namespace Named

omit [LabelledName α] in
theorem exists_of_mem (h : Named c d ρ current) {t : α} (ht : t ∈ d.rows) :
    ∃ y ∈ c.rows, called (current y) (relabel ρ y) = t := by
  rw [h.rows] at ht
  exact List.mem_map.1 ht

/-- **No wrong name is taken over**: the row that has the default name of a touched row is that
row. -/
theorem eq_of_takesName (h : Named c d ρ current) (hl : c.Legible ρ Partial) (hσ : Partial σ)
    (hx : x ∈ c.rows) (hy : y ∈ c.rows)
    (ht : d.takesName (relabel σ x) (called (current y) (relabel ρ y)) = true) : x = y := by
  obtain ⟨hex, -, hey, -, hd⟩ := takesName_iff.1 ht
  rw [isExplicit_relabel] at hex
  rw [isExplicit_called, isExplicit_relabel] at hey
  rw [name_called] at hd
  rcases h.current y hy with hc | hc
  · rw [hc, ← hl.declared y hy, ← relabel_none y] at hd
    rw [relabel_none] at hd
    exact hl.unique hσ hl.none x hx y hy hex hey (by rw [hd, relabel_none])
  · exact hl.unique hσ hl.all x hx y hy hex hey (by rw [hd, hc])

/-- **A name is free** as long as the row that has it in the source goes by another one. -/
theorem hasKey_eq_false (h : Named c d ρ current) (hl : c.Legible ρ Partial) (hx : x ∈ c.rows)
    (hne : current x ≠ name x) : d.hasKey (Row.key (relabel ρ x)) = false := by
  refine hasKey_eq_false_iff.2 fun t ht e => ?_
  obtain ⟨y, hy, rfl⟩ := h.exists_of_mem ht
  rw [key_called, key_eq, Key.scoped.injEq, table_relabel, table_relabel, name_relabel] at e
  obtain ⟨htable, hname⟩ := e
  have hsame (hn : name y = name x) : False := by
    have hxy : y = x := by
      refine eq_of_key_eq hy hx ?_
      rw [key_eq, key_eq, hl.table_inj y hy x hx htable, hn]
    exact hne (by rw [← hxy, hname, hxy])
  rcases h.current y hy with hc | hc
  · exact hsame (hc.symm.trans hname)
  rw [hc] at hname
  cases hey : isExplicit y with
  | true => exact hsame (by rw [← hname, declaredName_relabel_of_isExplicit hey])
  | false =>
    have hd := declaredName_of_not_isExplicit (x := relabel ρ y) (by rw [isExplicit_relabel, hey])
    cases hdef : default? (relabel ρ y) with
    | none =>
      rw [hdef, Option.getD_none, name_relabel] at hd
      exact hsame (hd.symm.trans hname)
    | some n =>
      rw [hdef, Option.getD_some, hname] at hd
      have hex : isExplicit x = false := by
        by_contra hex
        rw [Bool.not_eq_false] at hex
        rcases h.current x hx with hcx | hcx
        · exact hne hcx
        · exact hne (hcx.trans (declaredName_relabel_of_isExplicit hex))
      have hyx : y = x := by
        refine hl.unique hl.all hl.none y hy x hx hey hex ?_
        rw [hdef, relabel_none, hl.declared x hx, hd]
      exact hne (by rw [← hyx, hc, hname, hyx])

/-- **Keeping the name of a touched row** restores the name of that row at most, and does so if all
that the row lists has been renamed. -/
theorem keepName (h : Named c d ρ current) (hl : c.Legible ρ Partial) (hσ : Partial σ)
    (hx : x ∈ c.rows) : ∃ current' : α → String, Named c (d.keepName (relabel σ x)) ρ current' ∧
      (∀ y ∈ c.rows, current y = name y → current' y = name y) ∧
        ∀ y ∈ c.rows, relabel ρ y = relabel σ x → current' y = name y := by
  refine ⟨fun y => if d.takesName (relabel σ x) (called (current y) (relabel ρ y)) then name y
    else current y, ⟨?_, fun y hy => ?_⟩, fun y _ hc => ?_, fun y hy e => ?_⟩
  · show d.rows.map (d.keptRow (relabel σ x)) = _
    rw [h.rows, List.map_map]
    refine List.map_congr_left fun y hy => ?_
    rw [Function.comp_apply, keptRow]
    split
    next ht => rw [called_called, name_relabel, h.eq_of_takesName hl hσ hx hy ht]
    next => rfl
  · split
    · exact .inl rfl
    · exact h.current y hy
  · dsimp only
    split
    · rfl
    · exact hc
  · dsimp only
    split
    · rfl
    next hno =>
      -- The row has its new default name, and nothing keeps it from taking its old name over.
      by_contra hne
      have hc := (h.current y hy).resolve_left hne
      refine hno (takesName_iff.2 ?_)
      have hey : isExplicit y = false := by
        by_contra hey
        rw [Bool.not_eq_false] at hey
        exact hne (hc.trans (declaredName_relabel_of_isExplicit hey))
      rw [← e, isExplicit_relabel, isExplicit_called, table_called, name_called,
        isExplicit_relabel]
      refine ⟨hey, h.hasKey_eq_false hl hy hne, hey, rfl, ?_⟩
      have hd := declaredName_of_not_isExplicit (x := relabel ρ y) (by rw [isExplicit_relabel, hey])
      cases hdef : default? (relabel ρ y) with
      | none =>
        rw [hdef, Option.getD_none, name_relabel] at hd
        exact absurd (hc.trans hd) hne
      | some n => rw [hc, hd, hdef, Option.getD_some]

theorem keepNames (hl : c.Legible ρ Partial) (hσ : Partial σ) : ∀ {xs : List α} {d : Collection α}
    {current : α → String}, Named c d ρ current → (∀ x ∈ xs, ∃ y ∈ c.rows, relabel σ y = x) →
      ∃ current' : α → String, Named c (d.keepNames xs) ρ current' ∧
        (∀ y ∈ c.rows, current y = name y → current' y = name y) ∧
          ∀ y ∈ c.rows, relabel ρ y ∈ xs → current' y = name y
  | [], d, current, h, _ => ⟨current, h, fun _ _ hc => hc, fun _ _ hy => absurd hy List.not_mem_nil⟩
  | x :: xs, d, current, h, hxs => by
    obtain ⟨y, hy, rfl⟩ := hxs x (List.mem_cons_self ..)
    obtain ⟨current₁, h₁, hkept₁, hdone₁⟩ := h.keepName hl hσ hy
    obtain ⟨current₂, h₂, hkept₂, hdone₂⟩ :=
      keepNames hl hσ h₁ fun z hz => hxs z (List.mem_cons_of_mem _ hz)
    refine ⟨current₂, h₂, fun z hz hc => hkept₂ z hz (hkept₁ z hz hc), fun z hz hm => ?_⟩
    rcases List.mem_cons.1 hm with e | hm
    · exact hkept₂ z hz (hdone₁ z hz e)
    · exact hdone₂ z hz hm

end Named

namespace Restored

omit [LabelledName α] in
/-- **In the beginning** the rows of the target are declared anew. -/
theorem init (hl : c.Legible ρ Partial)
    (h : d.rows = c.rows.map fun x => redeclared (relabel ρ x)) : Restored c d ρ .none := by
  refine ⟨fun x => declaredName (relabel ρ x), ⟨h, fun _ _ => .inr rfl⟩, fun x hx e => ?_⟩
  rw [relabel_none] at e
  show declaredName (relabel ρ x) = name x
  rw [← e, hl.declared x hx]

/-- **One more step of the renames** restores the names of what it completes. -/
theorem step (h : Restored c d ρ σ) (hl : c.Legible ρ Partial) (hσ : Partial (σ.andThen τ))
    {touched : List α} (he : e.rows = c.rows.map (relabel σ)) (ht : e.Touches τ touched) :
    Restored c (d.keepNames touched) ρ (σ.andThen τ) := by
  obtain ⟨current, hn, hdone⟩ := h
  have hfrom : ∀ x ∈ touched, ∃ y ∈ c.rows, relabel (σ.andThen τ) y = x := fun x hx => by
    obtain ⟨y, hy, rfl⟩ := ht.relabelled x hx
    rw [he] at hy
    obtain ⟨z, hz, rfl⟩ := List.mem_map.1 hy
    exact ⟨z, hz, (relabel_relabel σ τ z).symm⟩
  obtain ⟨current', hn', hkept, hnow⟩ := Named.keepNames hl hσ hn hfrom
  refine ⟨current', hn', fun x hx e' => ?_⟩
  by_cases hstay : relabel τ (relabel σ x) = relabel σ x
  · rw [← relabel_relabel, hstay] at e'
    exact hkept x hx (hdone x hx e')
  · refine hnow x hx ?_
    rw [← e', ← relabel_relabel]
    exact ht.changed _ (he ▸ List.mem_map_of_mem hx) hstay

/-- **In the end** all rows have the names that they have in the source. -/
theorem rows_eq (h : Restored c d ρ σ) (hσ : ∀ x ∈ c.rows, relabel σ x = relabel ρ x) :
    d.rows = c.rows.map (relabel ρ) := by
  obtain ⟨current, hn, hdone⟩ := h
  rw [hn.rows]
  refine List.map_congr_left fun x hx => ?_
  rw [hdone x hx (hσ x hx), ← name_relabel ρ x, called_name]

end Restored

end Collection

end SchemaEvolution
