import SchemaEvolution.Proofs.Renaming
import SchemaEvolution.Proofs.Replay.Batch

/-!
# Replaying renames

Renames are settled all at once, but carried out one by one. If they match rows of two sides, each
of them finds its old name there and its new name free, and together they lead to the same catalog.
-/

namespace SchemaEvolution.Catalog

variable {c d : Catalog}

theorem rename?_eq_some {α : Type} [Row α] {rows : Collection α} {old new : Key} {ρ : Relabelling}
    (hold : rows.hasKey old = true) (hnew : rows.hasKey new = false) (h : IsRelabelled ρ c d) :
    c.rename? rows old new ρ = some d := by
  rw [rename?, hold, hnew]
  exact relabel?_eq_some_of_isRelabelled h

/-- **Renamed tables**, one by one. -/
theorem replay?_renameTables {target : Collection Table} :
    ∀ {rs : List (Renaming Table)} {c : Catalog}, Matching c.tables target rs →
      IsRelabelled (.ofTableRenames rs) c d →
      c.replay? (rs.map fun r => .renameTable r.old.name r.new.name) = some d
  | [], c, _, h => by
    rw [h.eq_of_none]
    rfl
  | r :: rs, c, hm, h => by
    rw [Relabelling.ofTableRenames_cons hm] at h
    obtain ⟨e, h₁, h₂⟩ := h.split
    have hp : c.perform? (.renameTable r.old.name r.new.name) = some e :=
      rename?_eq_some (hm.old_in_source r (List.mem_cons_self ..))
        (hm.new_not_in_source r (List.mem_cons_self ..)) h₁
    rw [List.map_cons, replay?_cons hp]
    exact replay?_renameTables
      (hm.step (Relabelling.ofTableRenames_follows hm.head) h₁.tables) h₂

/-- **Renamed columns**, one by one. -/
theorem replay?_renameColumns {target : Collection Column} :
    ∀ {rs : List (Renaming Column)} {c : Catalog}, Matching c.columns target rs →
      (∀ r ∈ rs, r.new.table = r.old.table) → IsRelabelled (.ofColumnRenames rs) c d →
      c.replay? (rs.map fun r => .renameColumn r.new.table r.old.name r.new.name) = some d
  | [], c, _, _, h => by
    rw [h.eq_of_none]
    rfl
  | r :: rs, c, hm, ht, h => by
    have htr := ht r (List.mem_cons_self ..)
    rw [Relabelling.ofColumnRenames_cons hm htr] at h
    obtain ⟨e, h₁, h₂⟩ := h.split
    have hold := hm.old_in_source r (List.mem_cons_self ..)
    have hkey : Row.key r.old = .scoped r.new.table r.old.name :=
      congrArg (Key.scoped · r.old.name) htr.symm
    rw [hkey] at hold
    have hp : c.perform? (.renameColumn r.new.table r.old.name r.new.name) = some e :=
      rename?_eq_some hold (hm.new_not_in_source r (List.mem_cons_self ..)) h₁
    have hf : (Relabelling.ofColumns r.new.table [(r.old.name, r.new.name)]).Follows [r] := by
      have hone := Relabelling.ofColumnRenames_cons hm.head htr
      have hf := Relabelling.ofColumnRenames_follows hm.head
        (fun q hq => List.mem_singleton.1 hq ▸ htr)
      rw [hone] at hf
      exact hf
    rw [List.map_cons, replay?_cons hp]
    exact replay?_renameColumns (hm.step hf h₁.columns)
      (fun q hq => ht q (List.mem_cons_of_mem _ hq)) h₂

/-- **Renamed views**, one by one. -/
theorem replay?_renameViews {target : Collection View} :
    ∀ {rs : List (Renaming View)} {c : Catalog}, Matching c.views target rs →
      IsRelabelled (.ofViewRenames rs) c d →
      c.replay? (rs.map fun r => .renameView r.old.name r.new.name) = some d
  | [], c, _, h => by
    rw [h.eq_of_none]
    rfl
  | r :: rs, c, hm, h => by
    rw [Relabelling.ofViewRenames_cons hm] at h
    obtain ⟨e, h₁, h₂⟩ := h.split
    have hp : c.perform? (.renameView r.old.name r.new.name) = some e :=
      rename?_eq_some (hm.old_in_source r (List.mem_cons_self ..))
        (hm.new_not_in_source r (List.mem_cons_self ..)) h₁
    rw [List.map_cons, replay?_cons hp]
    exact replay?_renameViews (hm.step (Relabelling.ofViewRenames_follows hm.head) h₁.views) h₂

end SchemaEvolution.Catalog
