import SchemaEvolution.Proofs.Entries
import SchemaEvolution.Proofs.RenamedKeys
import SchemaEvolution.Proofs.Settlement

/-!
# Answers from known renames

A table of known renames is one flat list for tables, columns and views. It answers an offer with
those renames of which both sides are on offer, in the order of the list.

**Rows are only moved** from what is created and deleted to what is renamed, so every answer
accounts for its offer (`RenameTable.accounts_resolve`).

**The answer are the renames on offer** (`RenameTable.renamedKeys_resolve`), if keys are plain and
none of them is renamed twice. So who knows how somebody else has answered gives the same answer
(`Settled.returns_answer_known`).
-/

namespace SchemaEvolution

variable {α : Type} {name : α → String}

namespace RenameTable

/-! ## Picking rows -/

theorem pick?_eq_none {s : String} : ∀ {xs : List α}, (∀ x ∈ xs, name x ≠ s) →
    pick? name s xs = none
  | [], _ => rfl
  | x :: xs, h => by
    rw [pick?, if_neg (h x (List.mem_cons_self ..)),
      pick?_eq_none fun y hy => h y (List.mem_cons_of_mem _ hy)]
    rfl

theorem of_pick? {s : String} {y : α} : ∀ {xs ys : List α}, pick? name s xs = some (y, ys) →
    name y = s ∧ xs.Perm (y :: ys)
  | [], _, h => by cases h
  | x :: xs, ys, h => by
    rw [pick?] at h
    split at h
    · next hx =>
      obtain ⟨rfl, rfl⟩ := Prod.mk.inj (Option.some.inj h)
      exact ⟨hx, .refl _⟩
    · obtain ⟨⟨z, zs⟩, hz, e⟩ := Option.map_eq_some_iff.1 h
      obtain ⟨rfl, rfl⟩ := Prod.mk.inj e
      obtain ⟨hn, hp⟩ := of_pick? hz
      exact ⟨hn, (hp.cons x).trans (.swap ..)⟩

theorem exists_pick? {s : String} : ∀ {xs : List α}, (∃ x ∈ xs, name x = s) →
    ∃ y ys, pick? name s xs = some (y, ys)
  | x :: xs, h => by
    rw [pick?]
    split
    · exact ⟨x, xs, rfl⟩
    · next hx =>
      obtain ⟨y, hy, e⟩ := h
      obtain ⟨z, zs, hz⟩ : ∃ z zs, pick? name s xs = some (z, zs) := exists_pick?
        ⟨y, (List.mem_cons.1 hy).resolve_left fun hyx => hx (hyx ▸ e), e⟩
      exact ⟨z, x :: zs, by rw [hz]; rfl⟩

/-! ## Answers account for offers -/

variable [Row α] {o : Offer α} {r : Resolution α}

theorem accounts_applyPair (h : r.Accounts o) (p : String × String) :
    (applyPair name r p).Accounts o := by
  have hmoved {xs ys zs : List α} {y : α} (hp : xs.Perm (y :: ys)) :
      (xs ++ zs).Perm (ys ++ (zs ++ [y])) := by
    rw [← List.append_assoc]
    exact (hp.append_right zs).trans (List.perm_append_singleton y (ys ++ zs)).symm
  unfold applyPair
  split
  · next old deleted new created hold hnew =>
    refine ⟨h.created.trans (List.Perm.map _ ?_), h.deleted.trans (List.Perm.map _ ?_)⟩
    · rw [List.map_append]
      exact hmoved (of_pick? hnew).2
    · rw [List.map_append]
      exact hmoved (of_pick? hold).2
  · exact h

theorem accounts_resolve (t : RenameTable) (name : α → String) (o : Offer α) :
    (t.resolve name o).Accounts o := by
  have hfold : ∀ (ps : List (String × String)) (r : Resolution α), r.Accounts o →
      (ps.foldl (applyPair name) r).Accounts o := by
    intro ps
    induction ps with
    | nil => exact fun r h => h
    | cons p ps ih => exact fun r h => ih _ (accounts_applyPair h p)
  exact hfold t.pairs _ (Resolution.accounts_unchanged o)

/-! ## Answers to plain offers -/

/-- The renames of plain keys, as they are known from their entries. -/
def ofKeys (ks : List (Key × Key)) : RenameTable :=
  ⟨ks.map fun k => (k.1.label, k.2.label)⟩

end RenameTable

/-- Both keys of a renaming are on offer. -/
def Offer.Has [Row α] (o : Offer α) (k : Key × Key) : Prop :=
  k.1 ∈ o.deleted.map Row.key ∧ k.2 ∈ o.created.map Row.key

instance [Row α] (o : Offer α) : DecidablePred o.Has :=
  fun _ => inferInstanceAs (Decidable (_ ∧ _))

/-- The keys of all rows of an offer are plain. -/
structure Offer.IsPlain [Row α] (o : Offer α) : Prop where
  created : ∀ x ∈ o.created, (Row.key x).IsPlain
  deleted : ∀ x ∈ o.deleted, (Row.key x).IsPlain

/-- What is still on offer. -/
def Resolution.pending (r : Resolution α) : Offer α :=
  ⟨r.created, r.deleted⟩

namespace RenameTable

variable [Row α] {o : Offer α} {r : Resolution α}

variable {k : Key × Key}

theorem applyPair_of_not_offered (hname : ∀ x, name x = (Row.key x).label)
    (ho : r.pending.IsPlain) (hk : k.1.IsPlain ∧ k.2.IsPlain)
    (h : ¬r.pending.Has k) :
    applyPair name r (k.1.label, k.2.label) = r := by
  have hnone {xs : List α} {s : Key} (hx : ∀ x ∈ xs, (Row.key x).IsPlain) (hs : s.IsPlain)
      (hin : s ∉ xs.map Row.key) : pick? name s.label xs = none :=
    pick?_eq_none fun x hxs e => hin (List.mem_map.2 ⟨x, hxs,
      Key.label_inj (hx x hxs) hs ((hname x).symm.trans e)⟩)
  rcases not_and_or.1 h with hold | hnew
  · have hp : pick? name k.1.label r.deleted = none := hnone ho.deleted hk.1 hold
    rw [applyPair, hp]
  · have hp : pick? name k.2.label r.created = none := hnone ho.created hk.2 hnew
    rw [applyPair, hp]
    split
    · next h => cases h
    · rfl

/-- A renaming that is on offer is taken, and its rows are not on offer any more. -/
theorem applyPair_of_offered (hname : ∀ x, name x = (Row.key x).label)
    (ho : r.pending.IsPlain) (hk : k.1.IsPlain ∧ k.2.IsPlain)
    (h : r.pending.Has k) :
    ∃ old deleted new created,
      applyPair name r (k.1.label, k.2.label) = ⟨created, deleted, r.renamed ++ [⟨old, new⟩]⟩ ∧
        Row.key old = k.1 ∧ Row.key new = k.2 ∧ r.deleted.Perm (old :: deleted) ∧
          r.created.Perm (new :: created) := by
  have hsome (xs : List α) {s : Key} (hx : ∀ x ∈ xs, (Row.key x).IsPlain) (hs : s.IsPlain)
      (hin : s ∈ xs.map Row.key) : ∃ y ys, pick? name s.label xs = some (y, ys) ∧
        Row.key y = s ∧ xs.Perm (y :: ys) := by
    obtain ⟨x, hxs, rfl⟩ := List.mem_map.1 hin
    obtain ⟨y, ys, hp⟩ := exists_pick? ⟨x, hxs, hname x⟩
    obtain ⟨hn, hperm⟩ := of_pick? hp
    exact ⟨y, ys, hp, Key.label_inj (hx y (hperm.mem_iff.2 (List.mem_cons_self ..))) hs
      ((hname y).symm.trans hn), hperm⟩
  obtain ⟨old, deleted, hold, ko, hd⟩ := hsome r.deleted ho.deleted hk.1 h.1
  obtain ⟨new, created, hnew, kn, hc⟩ := hsome r.created ho.created hk.2 h.2
  exact ⟨old, deleted, new, created, by rw [applyPair, hold, hnew], ko, kn, hd, hc⟩

/-- **The renames on offer are taken, one after the other.** No row is renamed twice. -/
theorem renamedKeys_foldl (hname : ∀ x, name x = (Row.key x).label) :
    ∀ {ks : List (Key × Key)} {r : Resolution α}, r.pending.IsPlain →
      (∀ k ∈ ks, k.1.IsPlain ∧ k.2.IsPlain) →
      ((ks.filter r.pending.Has).map Prod.fst).Nodup →
      ((ks.filter r.pending.Has).map Prod.snd).Nodup →
      renamedKeys ((ofKeys ks).pairs.foldl (applyPair name) r).renamed =
        renamedKeys r.renamed ++ ks.filter r.pending.Has
  | [], r, _, _, _, _ => (List.append_nil _).symm
  | k :: ks, r, ho, hks, hold, hnew => by
    have hrest : ∀ k' ∈ ks, k'.1.IsPlain ∧ k'.2.IsPlain := fun k' hk' =>
      hks k' (List.mem_cons_of_mem _ hk')
    have hk := hks k (List.mem_cons_self ..)
    show renamedKeys ((ofKeys ks).pairs.foldl (applyPair name)
      (applyPair name r (k.1.label, k.2.label))).renamed = _
    by_cases h : r.pending.Has k
    · rw [List.filter_cons_of_pos (by simpa using h)] at hold hnew ⊢
      obtain ⟨holdk, hold⟩ := List.nodup_cons.1 hold
      obtain ⟨hnewk, hnew⟩ := List.nodup_cons.1 hnew
      obtain ⟨old, deleted, new, created, happly, ko, kn, hd, hc⟩ :=
        applyPair_of_offered hname ho hk h
      have hplain : (Resolution.mk created deleted (r.renamed ++ [⟨old, new⟩])).pending.IsPlain :=
        ⟨fun x hx => ho.created x (hc.mem_iff.2 (List.mem_cons_of_mem _ hx)),
          fun x hx => ho.deleted x (hd.mem_iff.2 (List.mem_cons_of_mem _ hx))⟩
      -- The other renames on offer have other keys, so they are still on offer.
      have hfilter : ks.filter
          (Resolution.mk created deleted (r.renamed ++ [⟨old, new⟩])).pending.Has =
            ks.filter r.pending.Has := by
        refine List.filter_congr fun k' hk' => decide_eq_decide.2 ?_
        have hdk := (hd.map Row.key).mem_iff (a := k'.1)
        have hck := (hc.map Row.key).mem_iff (a := k'.2)
        rw [List.map_cons, List.mem_cons, ko] at hdk
        rw [List.map_cons, List.mem_cons, kn] at hck
        constructor
        · exact fun h' => ⟨hdk.2 (.inr h'.1), hck.2 (.inr h'.2)⟩
        · intro h'
          have hin : k' ∈ ks.filter r.pending.Has := List.mem_filter.2 ⟨hk', decide_eq_true h'⟩
          refine ⟨(hdk.1 h'.1).resolve_left fun e => ?_, (hck.1 h'.2).resolve_left fun e => ?_⟩
          · exact holdk (e ▸ List.mem_map_of_mem hin)
          · exact hnewk (e ▸ List.mem_map_of_mem hin)
      rw [← hfilter] at hold hnew
      rw [happly, renamedKeys_foldl hname hplain hrest hold hnew, hfilter, renamedKeys_append,
        List.append_assoc]
      show renamedKeys r.renamed ++ ((Row.key old, Row.key new) :: _) = _
      rw [ko, kn]
      rfl
    · rw [List.filter_cons_of_neg (by simpa using h)] at hold hnew ⊢
      rw [applyPair_of_not_offered hname ho hk h]
      exact renamedKeys_foldl hname ho hrest hold hnew

/-- **The answer are the renames on offer**, if none of their keys is renamed twice. -/
theorem renamedKeys_resolve {ks : List (Key × Key)} (hname : ∀ x, name x = (Row.key x).label)
    (ho : o.IsPlain) (hks : ∀ k ∈ ks, k.1.IsPlain ∧ k.2.IsPlain)
    (hold : ((ks.filter o.Has).map Prod.fst).Nodup)
    (hnew : ((ks.filter o.Has).map Prod.snd).Nodup) :
    renamedKeys ((ofKeys ks).resolve name o).renamed = ks.filter o.Has :=
  renamedKeys_foldl (r := .unchanged o) hname ho hks hold hnew

end RenameTable

/-! ## The same answer again -/

namespace Settled

variable [Row α] {σ : Type} {ask : Offer α → StateM σ (Except String (Resolution α))}
  {o : Offer α} {r : Resolution α} {a b : σ}

/-- **Whoever knows how somebody has answered gives the same answer**, in whatever state. -/
theorem returns_answer_known (name : α → String) (h : Returns (answer ask o) a r b)
    {ks : List (Key × Key)} (hname : ∀ x, name x = (Row.key x).label) (ho : o.IsPlain)
    (hks : ∀ k ∈ ks, k.1.IsPlain ∧ k.2.IsPlain) (hdn : (o.deleted.map Row.key).Nodup)
    (hcn : (o.created.map Row.key).Nodup) (hhas : ks.filter o.Has = renamedKeys r.renamed) :
    ∃ r' : Resolution α, r'.Accounts o ∧ renamedKeys r'.renamed = renamedKeys r.renamed ∧
      ∀ {τ : Type} (u : τ), Returns (answer (fun o =>
        (pure (.ok ((RenameTable.ofKeys ks).resolve name o)) :
          StateM τ (Except String (Resolution α)))) o) u r' u := by
  have ha := returns_answer h
  unfold answer at h ⊢
  split at h
  · next hempty =>
    obtain ⟨rfl, -⟩ := returns_pure_iff.1 h
    refine ⟨_, ha, rfl, fun u => ?_⟩
    rw [if_pos hempty]
    exact returns_pure_iff.2 ⟨rfl, rfl⟩
  · next hempty =>
    have hr := RenameTable.accounts_resolve (RenameTable.ofKeys ks) name o
    have hold : ((ks.filter o.Has).map Prod.fst).Nodup := by
      rw [hhas, renamedKeys, List.map_map]
      exact ha.nodup_old hdn
    have hnew : ((ks.filter o.Has).map Prod.snd).Nodup := by
      rw [hhas, renamedKeys, List.map_map]
      exact ha.nodup_new hcn
    refine ⟨_, hr, (RenameTable.renamedKeys_resolve hname ho hks hold hnew).trans hhas,
      fun u => ?_⟩
    rw [if_neg hempty]
    refine returns_bind_iff.2 ⟨_, u, returns_state_iff.2 rfl, ?_⟩
    simp only [hr.verify]
    exact returns_pure_iff.2 ⟨rfl, rfl⟩

end Settled

end SchemaEvolution
