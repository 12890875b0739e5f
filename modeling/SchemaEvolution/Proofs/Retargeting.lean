import SchemaEvolution.Proofs.Propagation
import SchemaEvolution.Proofs.RowsByKind
import SchemaEvolution.Proofs.SimultaneousUpdates

/-!
# Tables that are followed part of the way

What belongs to tables follows them to new names kind by kind (`Catalog.followers`). A kind follows
as a whole, or two of its rows would come to share a key: then it stays as it is, and so do the
kinds after it (`Catalog.follows_update`).

**A failure stops between two kinds** (`Catalog.retarget_stops`): what came before it has followed
completely, and nothing else has changed. A run without a failure lists the foreign keys and indexes
that were touched, as they are afterwards.
-/

namespace SchemaEvolution

theorem raises_update_of {α : Type} [Row α] {part : Part α} {c : Catalog} {change : α → α}
    {selects : α → Bool} {k : Key} (h : (part.get c).update change selects = .error k) :
    Raises (Edit.update part change selects) c (.update (Row.kind α) k) c := by
  show Id.run ((Edit.update part change selects).run c) = _
  simp only [Edit.run, ExceptT.run, Edit.update, h]
  rfl

theorem Entity.relabel_none (e : Entity) : e.relabel .none = e := by
  cases e <;> exact congrArg _ (Labelled.relabel_none _)

namespace Catalog

/-- The kinds of rows that follow tables to new names, in the order in which they do. -/
def followers : List Kind :=
  [.columns, .primaryKeys, .indexes, .checks, .foreignKeys]

/-- The rows of some kinds are relabelled, and those of all other kinds are as they were. -/
def RelabelledIn (c : Catalog) (ρ : Relabelling) (kinds : List Kind) (d : Catalog) : Prop :=
  ∀ kind, d.rowsOf kind =
    if kind ∈ kinds then (c.rowsOf kind).map (Entity.relabel ρ) else c.rowsOf kind

/-- Two rows of a kind would share a key after a relabelling. -/
def Collides (c : Catalog) (ρ : Relabelling) (kind : Kind) (key : Key) : Prop :=
  ∃ e ∈ c.rowsOf kind, ∃ e' ∈ c.rowsOf kind,
    e ≠ e' ∧ (e.relabel ρ).key = key ∧ (e'.relabel ρ).key = key

/-- After the kinds that are `done`, an edit lets those in `rest` follow and returns `b`, or it
stops before one of them that would have two rows under one key. -/
def Follows {β : Type} (c : Catalog) (ρ : Relabelling) (done rest : List Kind) (e : Edit β)
    (b : β) : Prop :=
  ∀ d, c.RelabelledIn ρ done d →
    (∃ d', Returns e d b d' ∧ c.RelabelledIn ρ (done ++ rest) d') ∨
    ∃ before kind after key d', rest = before ++ kind :: after ∧
      Raises e d (.update kind key) d' ∧ c.RelabelledIn ρ (done ++ before) d' ∧
      c.Collides ρ kind key

variable {c d : Catalog} {ρ : Relabelling} {kind : Kind} {key : Key} {kinds done rest : List Kind}

theorem RelabelledIn.not_collides (h : c.RelabelledIn ρ kinds d) (hk : kind ∈ kinds) :
    ¬c.Collides ρ kind key := by
  rintro ⟨e, he, e', he', hne, hkey, hkey'⟩
  have hn := d.nodup_key_rowsOf kind
  rw [h kind, if_pos hk, List.map_map] at hn
  exact hne (List.inj_on_of_nodup_map hn he he' (hkey.trans hkey'.symm))

/-! ## One kind -/

section

variable {α β : Type} [Row α] {part : Part α} {toEntity : α → Entity} {change : α → α}
  {selects : α → Bool}

/-- A kind that is not done yet has the rows that it had. -/
theorem RelabelledIn.get_eq (h : c.RelabelledIn ρ done d) (hp : part.Lists toEntity)
    (hk : Row.kind α ∉ done) : part.get d = part.get c := by
  have hrows := h (Row.kind α)
  rw [if_neg hk, hp.rowsOf, hp.rowsOf] at hrows
  exact Collection.ext_rows (List.map_injective_iff.2 hp.inj hrows)

variable [Labelled α]

theorem RelabelledIn.set (h : c.RelabelledIn ρ done d) (hp : part.Lists toEntity)
    (hrelabel : ∀ x, toEntity (relabel ρ x) = (toEntity x).relabel ρ) {rows : Collection α}
    (hrows : rows.rows = (part.get c).rows.map (relabel ρ)) :
    c.RelabelledIn ρ (done ++ [Row.kind α]) (part.set rows d) := by
  intro kind
  by_cases hk : kind = Row.kind α
  · subst hk
    rw [if_pos (by simp), hp.rowsOf, hp.get_set, hrows, hp.rowsOf]
    simp [hrelabel]
  · rw [hp.rowsOf_set _ _ _ hk, h kind]
    simp [hk]

/-- **A kind follows as a whole, or it stays as it is**, and then two of its rows would share a
key. -/
theorem follows_update (h : c.RelabelledIn ρ done d) (hp : part.Lists toEntity)
    (hrelabel : ∀ x, toEntity (relabel ρ x) = (toEntity x).relabel ρ)
    (hchange : ∀ x, (if selects x then change x else x) = relabel ρ x)
    (hk : Row.kind α ∉ done) :
    (∃ d', Returns (Edit.update part change selects) d
        (((part.get c).rows.filter selects).map (relabel ρ)) d' ∧
      c.RelabelledIn ρ (done ++ [Row.kind α]) d') ∨
    ∃ key, Raises (Edit.update part change selects) d (.update (Row.kind α) key) d ∧
      c.Collides ρ (Row.kind α) key := by
  have hget := h.get_eq hp hk
  cases hu : (part.get d).update change selects with
  | ok r =>
    obtain ⟨rows, updated⟩ := r
    obtain ⟨hrows, -⟩ := Collection.update_eq_ok_iff.1 hu
    have htouched : ((part.get d).rows.filter selects).map change =
        ((part.get c).rows.filter selects).map (relabel ρ) := by
      rw [hget]
      refine List.map_congr_left fun x hx => ?_
      rw [← hchange x, if_pos (List.mem_filter.1 hx).2]
    refine .inl ⟨_, htouched ▸ returns_update_of hrows, h.set hp hrelabel ?_⟩
    rw [hrows, hget]
    exact List.map_congr_left fun x _ => hchange x
  | error key =>
    obtain ⟨x, hx, y, hy, hne, hkx, hky⟩ := Collection.sharedKey_of_update_error hu
    rw [hget] at hx hy
    have hmem {z : α} (hz : z ∈ (part.get c).rows) : toEntity z ∈ c.rowsOf (Row.kind α) :=
      hp.rowsOf c ▸ List.mem_map_of_mem hz
    refine .inr ⟨key, raises_update_of hu, toEntity x, hmem hx, toEntity y, hmem hy,
      hp.inj.ne hne, ?_, ?_⟩
    · rw [← hrelabel, hp.key, ← hchange]
      exact hkx
    · rw [← hrelabel, hp.key, ← hchange]
      exact hky

/-! ## One kind after the other -/

theorem follows_pure (b : β) : c.Follows ρ kinds [] (pure b : Edit β) b :=
  fun d h => .inl ⟨d, returns_pure_iff.2 ⟨rfl, rfl⟩, by rwa [List.append_nil]⟩

/-- **One kind follows, and then the others do.** -/
theorem Follows.next {f : List α → Edit β} {b : β} (hp : part.Lists toEntity)
    (hrelabel : ∀ x, toEntity (relabel ρ x) = (toEntity x).relabel ρ)
    (hchange : ∀ x, (if selects x then change x else x) = relabel ρ x)
    (hk : Row.kind α ∉ done)
    (hf : c.Follows ρ (done ++ [Row.kind α]) rest
      (f (((part.get c).rows.filter selects).map (relabel ρ))) b) :
    c.Follows ρ done (Row.kind α :: rest) (Edit.update part change selects >>= f) b := by
  intro d h
  rcases follows_update h hp hrelabel hchange hk with ⟨d', hreturns, hd'⟩ | ⟨key, hraises, hc⟩
  · rcases hf d' hd' with ⟨d'', hr, hd''⟩ | ⟨before, kind, after, key, d'', rfl, hr, hd'', hc⟩
    · exact .inl ⟨d'', returns_bind_iff.2 ⟨_, _, hreturns, hr⟩, by simpa using hd''⟩
    · exact .inr ⟨Row.kind α :: before, kind, after, key, d'', rfl,
        raises_bind_iff.2 (.inr ⟨_, _, hreturns, hr⟩), by simpa using hd'', hc⟩
  · exact .inr ⟨[], Row.kind α, rest, key, d, rfl, raises_bind_iff.2 (.inl hraises),
      by simpa using h, hc⟩

end

/-! ## All kinds -/

/-- The rows with names of their own that mention a renamed table, in relabelled form. -/
def mentioning (c : Catalog) (m : NameMap) : Retargeted where
  foreignKeys := (c.foreignKeys.rows.filter fun k => m.renames k.table || m.renames k.target).map
    (relabel (.ofTables m))
  indexes := (c.indexes.rows.filter fun i => m.renames i.table).map (relabel (.ofTables m))

/-- **Kind by kind, everything follows its tables**, as far as keys stay apart. -/
theorem follows_retarget (c : Catalog) (m : NameMap) :
    c.Follows (.ofTables m) [] followers (retarget m) (c.mentioning m) := by
  unfold retarget
  split
  next hm =>
    -- Nothing runs for the empty map, which is right since relabelling by it changes no row.
    obtain rfl := List.isEmpty_iff.1 hm
    have hnone : Relabelling.ofTables [] = .none := Relabelling.ext (funext fun _ => rfl) rfl rfl
    have hsame : Entity.relabel (.ofTables []) = id := hnone ▸ funext Entity.relabel_none
    intro d h
    refine .inl ⟨d, returns_pure_iff.2 ⟨?_, rfl⟩, fun kind => ?_⟩
    · simp [mentioning, NameMap.renames]
    · rw [h kind]
      simp [hsame]
  next =>
    refine .next Part.lists_columns (fun _ => rfl) Propagate.column_ofTables (by decide) ?_
    refine .next Part.lists_primaryKeys (fun _ => rfl) Propagate.primaryKey_ofTables (by decide) ?_
    refine .next Part.lists_indexes (fun _ => rfl) Propagate.index_ofTables (by decide) ?_
    refine .next Part.lists_checks (fun _ => rfl) Propagate.check_ofTables (by decide) ?_
    refine .next Part.lists_foreignKeys (fun _ => rfl) Propagate.foreignKey_ofTables (by decide) ?_
    exact follows_pure _

/-- **A failure stops between two kinds.** If letting rows follow their tables fails, it fails at
the first kind with two rows that would share a key. The kinds before it have followed completely,
and all other rows are as they were. Otherwise all kinds have followed, and the foreign keys and
indexes that mention a renamed table are listed in their relabelled form. -/
theorem retarget_stops (m : NameMap) (c : Catalog) :
    match (retarget m).run c with
    | (.ok touched, d) =>
      c.RelabelledIn (.ofTables m) followers d ∧
      touched.foreignKeys =
        (c.foreignKeys.rows.filter fun k => m.renames k.table || m.renames k.target).map
          (relabel (.ofTables m)) ∧
      touched.indexes =
        (c.indexes.rows.filter fun i => m.renames i.table).map (relabel (.ofTables m))
    | (.error clash, d) =>
      ∃ before kind after key, followers = before ++ kind :: after ∧ clash = .update kind key ∧
        c.RelabelledIn (.ofTables m) before d ∧ c.Collides (.ofTables m) kind key ∧
        ∀ k ∈ before, ∀ key', ¬c.Collides (.ofTables m) k key' := by
  have hstart : c.RelabelledIn (.ofTables m) [] c := fun kind => by simp
  rcases follows_retarget c m c hstart with
    ⟨d, hr, hd⟩ | ⟨before, kind, after, key, d, h, hr, hd, hc⟩
  · have hrun : (retarget m).run c = (.ok (c.mentioning m), d) := hr
    rw [hrun]
    exact ⟨hd, rfl, rfl⟩
  · have hrun : (retarget m).run c = (.error (.update kind key), d) := hr
    rw [hrun]
    exact ⟨before, kind, after, key, h, rfl, hd, hc, fun k hk _ => hd.not_collides hk⟩

/-- Columns have followed their table although primary keys cannot. -/
example :
    let c := ofEntitiesLoose [.column { table := "a", name := "id", type := "int" },
      .primaryKey (.implicit "a" ["id"]), .primaryKey (.implicit "b" ["id"])]
    let d := ((retarget [("a", "b")]).run c).2
    d.columns.rows.map (·.table) = ["b"] ∧ d.primaryKeys.rows.map (·.table) = ["a", "b"] := by
  decide +kernel

end Catalog

end SchemaEvolution
