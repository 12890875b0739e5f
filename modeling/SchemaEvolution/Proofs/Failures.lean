import SchemaEvolution.Proofs.CarriedRenames
import SchemaEvolution.Proofs.DistinctNames

/-!
# How planning a migration fails

Renames are carried through catalogs by updates, and an update whose rows would share a key is an
internal error. In a source whose rows belong to its tables and views (`Catalog.Placed`) that does
not happen: accepted renames keep names apart, so the relabelled rows are the rows of a catalog and
can be reached.

**Planning from such a source fails because of the resolver only**
(`Migration.fails_by_resolver`), whatever the target is.
-/

namespace SchemaEvolution

/-- Whether an error says that renames could not be resolved, or that the answer was
inconsistent. -/
def Error.ofResolver : Error → Bool
  | .unresolved .. | .inconsistent .. => true
  | _ => false

/-! ## Settling renames -/

theorem Sides.not_carry_error {e : SidesEdit Unit} {s t : Sides} {error : Error}
    (h : Returns e s () t) : s.carry e ≠ .error error := by
  rw [Sides.carry_eq_ok_iff.2 h]
  rintro ⟨⟩

namespace Settled

variable {σ : Type} {a b : σ} {e : Error} {s : Sides} {r : Resolver (StateM σ)}

theorem raises_answer {α : Type} [Row α] {ask : Offer α → StateM σ (Except String (Resolution α))}
    {o : Offer α} (h : Raises (answer ask o) a e b) : e.ofResolver = true := by
  unfold answer at h
  split at h
  · exact absurd h not_raises_pure
  · obtain h | ⟨_, _, -, h⟩ := raises_bind_iff.1 h
    · exact absurd h not_raises_state
    · split at h
      · obtain ⟨rfl, -⟩ := raises_throw_iff.1 h
        rfl
      · split at h
        · obtain ⟨rfl, -⟩ := raises_throw_iff.1 h
          rfl
        · exact absurd h not_raises_pure

theorem raises_renamedColumns : ∀ {gs : List ColumnGroup} {a b : σ},
    Raises (renamedColumns r gs) a e b → e.ofResolver = true
  | [], _, _, h => absurd h not_raises_pure
  | g :: gs, _, _, h => by
    obtain h | ⟨_, _, -, h⟩ := raises_bind_iff.1 h
    · exact raises_answer h
    · obtain h | ⟨_, _, -, h⟩ := raises_bind_iff.1 h
      · exact raises_renamedColumns h
      · exact absurd h not_raises_pure

theorem raises_tables (hs : s.source.Placed) (h : Raises (tables r s) a e b) :
    e.ofResolver = true := by
  obtain h | ⟨resolution, _, ha, h⟩ := raises_bind_iff.1 h
  · exact raises_answer h
  have hm := matching_of_accounts (offer_between ..) (returns_answer ha)
  obtain ⟨d, hd⟩ := hs.exists_isRelabelled hm.keptApart_tables
  obtain ⟨_, -, hr⟩ := Propagate.exists_returns_renameTables hd
  obtain h | ⟨_, _, -, h⟩ := raises_bind_iff.1 h
  · exact absurd (raises_except_iff.1 h).1 (Sides.not_carry_error hr)
  · exact absurd h not_raises_pure

theorem raises_columns {tables : Resolution Table} (hs : s.source.Placed)
    (h : Raises (columns r tables s) a e b) : e.ofResolver = true := by
  obtain h | ⟨rs, _, ha, h⟩ := raises_bind_iff.1 h
  · exact raises_renamedColumns h
  obtain ⟨hm, ht⟩ := returns_renamedColumns (ColumnGroup.nodup_tables ..)
    (ColumnGroup.between tables.created tables.deleted) ha
  obtain ⟨d, hd⟩ := hs.exists_isRelabelled (hm.keptApart_columns fun q hq => (ht q hq).1)
  rw [← Propagate.inTurn_columnNames] at hd
  obtain ⟨_, -, hr⟩ := Propagate.exists_returns_renameGroups (fun _ _ => True)
    (fun _ _ _ => trivial) trivial hd
  obtain h | ⟨_, _, -, h⟩ := raises_bind_iff.1 h
  · exact absurd (raises_except_iff.1 h).1 (Sides.not_carry_error hr)
  · exact absurd h not_raises_pure

theorem raises_views (hs : s.source.Placed) (h : Raises (views r s) a e b) :
    e.ofResolver = true := by
  obtain h | ⟨resolution, _, ha, h⟩ := raises_bind_iff.1 h
  · exact raises_answer h
  have hm := matching_of_accounts (offer_between ..) (returns_answer ha)
  obtain ⟨d, hd⟩ := hs.exists_isRelabelled hm.keptApart_views
  obtain h | ⟨_, _, -, h⟩ := raises_bind_iff.1 h
  · exact absurd (raises_except_iff.1 h).1
      (Sides.not_carry_error (Propagate.returns_renameViews_of hd))
  · exact absurd h not_raises_pure

/-- **Settling renames fails because of the resolver only.** -/
theorem raises_settle (hs : s.source.Placed) (h : Raises (Sides.settle r s) a e b) :
    e.ofResolver = true := by
  obtain h | ⟨⟨tables, s₁⟩, _, h₁, h⟩ := raises_bind_iff.1 h
  · exact raises_tables hs h
  have hs₁ := (returns_tables h₁).2.1.placed hs
  obtain h | ⟨⟨columns, s₂⟩, _, h₂, h⟩ := raises_bind_iff.1 h
  · exact raises_columns hs₁ h
  have hs₂ := (returns_columns h₂).2.2.1.placed hs₁
  obtain h | ⟨⟨views, s₃⟩, _, -, h⟩ := raises_bind_iff.1 h
  · exact raises_views hs₂ h
  · exact absurd h not_raises_pure

end Settled

/-- **Planning from a placed source fails because of the resolver only**, whatever the target is
and whatever the resolver answers. -/
theorem Migration.fails_by_resolver {σ : Type} (r : Resolver (StateM σ))
    (options : MigrationOptions) {source : Catalog} (target : Catalog) (hs : source.Placed)
    (a : σ) :
    (∃ m b, Returns (Migration.between r options source target) a m b) ∨
      ∃ e b, Raises (Migration.between r options source target) a e b ∧ e.ofResolver = true := by
  refine (returns_or_raises _ a).imp id fun ⟨e, b, h⟩ => ⟨e, b, h, ?_⟩
  obtain h | ⟨_, _, -, h⟩ := raises_bind_iff.1 h
  · exact Settled.raises_settle hs h
  · exact absurd h not_raises_pure

/-- A table whose foreign key refers to a table that does not exist. -/
def dangling (table : String) : Catalog where
  tables := ⟨[⟨table⟩], by simp⟩
  foreignKeys := ⟨[⟨table, "origin", false, [], "nowhere", [], .noAction, .noAction⟩], by simp⟩

theorem Migration.fails_by_resolver_from_dangling :
    (dangling "leaf").Placed ∧
      ((∃ m b, Returns (Migration.between (RenameTable.resolver ⟨[("leaf", "branch")]⟩ :
        Resolver (StateM Unit)) {} (dangling "leaf") (dangling "branch")) () m b) ∨
      ∃ e b, Raises (Migration.between (RenameTable.resolver ⟨[("leaf", "branch")]⟩ :
        Resolver (StateM Unit)) {} (dangling "leaf") (dangling "branch")) () e b ∧
          e.ofResolver = true) := by
  have hs : (dangling "leaf").Placed := by constructor <;> decide
  exact ⟨hs, Migration.fails_by_resolver _ _ _ hs ()⟩

end SchemaEvolution
