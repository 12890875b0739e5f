import SchemaEvolution.Proofs.Entities
import SchemaEvolution.Proofs.Ownership

/-!
# Names that stay distinct

**A relabelling leads to a catalog** if it gives distinct names to tables, columns and views
(`Catalog.KeptApart`) and every row belongs to one of them (`Catalog.Placed.exists_isRelabelled`).

**Accepted renames keep names apart** (`Matching.eq_of_key_eq`): no name that is taken up was in
use, and none is taken up twice.
-/

namespace SchemaEvolution

/-! ## Names of a catalog -/

namespace Catalog

variable {c d : Catalog} {ρ : Relabelling}

/-- A relabelling gives distinct names to the tables, columns and views of a catalog. -/
structure KeptApart (c : Catalog) (ρ : Relabelling) : Prop where
  tables : ∀ {t u}, c.hasTable t = true → c.hasTable u = true → ρ.table t = ρ.table u → t = u
  columns : ∀ {t m n}, c.hasColumn t m = true → c.hasColumn t n = true →
    ρ.column t m = ρ.column t n → m = n
  views : ∀ {v w}, c.views.hasKey (.single v) = true → c.views.hasKey (.single w) = true →
    ρ.view v = ρ.view w → v = w

/-- **Names that stay apart keep rows apart**, if every row has a place. -/
theorem Placed.exists_isRelabelled (hc : c.Placed) (h : c.KeptApart ρ) :
    ∃ d, c.IsRelabelled ρ d := by
  refine Catalog.exists_isRelabelled fun e he e' he' hkind hkey => eq_of_key_eq he he' hkind ?_
  cases e <;> cases e' <;> try cases hkind
  case table x y =>
    refine congrArg Key.single (h.tables ?_ ?_ (Key.single.inj hkey))
    · exact Collection.hasKey_key (by simpa using he)
    · exact Collection.hasKey_key (by simpa using he')
  case column x y =>
    obtain ⟨ht, hn⟩ := Key.scoped.inj hkey
    rw [column_mem_entities] at he he'
    have htable : x.table = y.table := h.tables (hc.columns x he) (hc.columns y he') ht
    refine congrArg₂ Key.scoped htable (h.columns (Collection.hasKey_key he) ?_ ?_)
    · rw [htable]
      exact Collection.hasKey_key he'
    · exact hn.trans (congrArg (ρ.column · y.name) htable.symm)
  case primaryKey x y =>
    refine congrArg Key.single (h.tables ?_ ?_ (Key.single.inj hkey))
    · exact hc.primaryKeys x (by simpa using he)
    · exact hc.primaryKeys y (by simpa using he')
  case foreignKey x y =>
    obtain ⟨ht, hn⟩ := Key.scoped.inj hkey
    refine congrArg₂ Key.scoped (h.tables ?_ ?_ ht) hn
    · exact hc.foreignKeys x (by simpa using he)
    · exact hc.foreignKeys y (by simpa using he')
  case index x y =>
    obtain ⟨ht, hn⟩ := Key.scoped.inj hkey
    refine congrArg₂ Key.scoped (h.tables ?_ ?_ ht) hn
    · exact hc.indexes x (by simpa using he)
    · exact hc.indexes y (by simpa using he')
  case check x y =>
    obtain ⟨ht, hn⟩ := Key.scoped.inj hkey
    refine congrArg₂ Key.scoped (h.tables ?_ ?_ ht) hn
    · exact hc.checks x (by simpa using he)
    · exact hc.checks y (by simpa using he')
  case view x y =>
    refine congrArg Key.single (h.views ?_ ?_ (Key.single.inj hkey))
    · exact Collection.hasKey_key (by simpa using he)
    · exact Collection.hasKey_key (by simpa using he')
  case viewColumn x y =>
    obtain ⟨hv, hn⟩ := Key.scoped.inj hkey
    refine congrArg₂ Key.scoped (h.views ?_ ?_ hv) hn
    · exact hc.viewColumns x (by simpa using he)
    · exact hc.viewColumns y (by simpa using he')

end Catalog

/-! ## Names after accepted renames -/

namespace Matching

/-- **Accepted renames keep keys apart.** -/
theorem eq_of_key_eq {α : Type} [Row α] {source target : Collection α} {rs : List (Renaming α)}
    {ρ : Relabelling} {k k' : Key} (h : Matching source target rs) (hρ : ρ.Follows rs)
    (hk : source.hasKey k = true) (hk' : source.hasKey k' = true)
    (e : ρ.key (Row.kind α) k = ρ.key (Row.kind α) k') : k = k' := by
  obtain ⟨x, -, rfl⟩ := Collection.hasKey_iff_exists.1 hk
  obtain ⟨y, -, rfl⟩ := Collection.hasKey_iff_exists.1 hk'
  have hnew {r : Renaming α} {z : α} (hr : r ∈ rs) (hz : source.hasKey (Row.key z) = true)
      (e : Row.key r.new = Row.key z) : False := by
    rw [← e, h.new_not_in_source r hr] at hz
    cases hz
  by_cases hx : ∃ r ∈ rs, Row.key r.old = Row.key x
  · obtain ⟨r, hr, hrx⟩ := hx
    rw [← hrx, hρ.old r hr] at e
    by_cases hy : ∃ q ∈ rs, Row.key q.old = Row.key y
    · obtain ⟨q, hq, hqy⟩ := hy
      rw [← hqy, hρ.old q hq] at e
      rw [← hrx, ← hqy, h.eq_of_new hq hr e]
    · push Not at hy
      rw [hρ.other y hy] at e
      exact (hnew hr hk' e).elim
  · push Not at hx
    rw [hρ.other x hx] at e
    by_cases hy : ∃ q ∈ rs, Row.key q.old = Row.key y
    · obtain ⟨q, hq, hqy⟩ := hy
      rw [← hqy, hρ.old q hq] at e
      exact (hnew hq hk e.symm).elim
    · push Not at hy
      rwa [hρ.other y hy] at e

variable {c d : Catalog}

theorem keptApart_tables {rs : List (Renaming Table)} (h : Matching c.tables d.tables rs) :
    c.KeptApart (.ofTableRenames rs) where
  tables ht hu e := Key.single.inj <|
    h.eq_of_key_eq (Relabelling.ofTableRenames_follows h) ht hu (congrArg Key.single e)
  columns _ _ e := e
  views _ _ e := e

theorem keptApart_columns {rs : List (Renaming Column)} (h : Matching c.columns d.columns rs)
    (ht : ∀ r ∈ rs, r.new.table = r.old.table) : c.KeptApart (.ofColumnRenames rs) where
  tables _ _ e := e
  columns hm hn e := (Key.scoped.inj <|
    h.eq_of_key_eq (Relabelling.ofColumnRenames_follows h ht) hm hn (congrArg (Key.scoped _) e)).2
  views _ _ e := e

theorem keptApart_views {rs : List (Renaming View)} (h : Matching c.views d.views rs) :
    c.KeptApart (.ofViewRenames rs) where
  tables _ _ e := e
  columns _ _ e := e
  views hv hw e := Key.single.inj <|
    h.eq_of_key_eq (Relabelling.ofViewRenames_follows h) hv hw (congrArg Key.single e)

end Matching

end SchemaEvolution
