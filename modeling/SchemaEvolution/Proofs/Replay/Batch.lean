import SchemaEvolution.Proofs.Replay.Basic

/-!
# Replaying statements of one sort

Within a phase, statements of one sort touch different rows of one kind. So they all succeed if each
of them would succeed by itself, and what they leave can be said at once: the rows that are not
touched, and the rows that are put in place.
-/

namespace SchemaEvolution

/-! ## One row -/

namespace Collection

variable {α : Type} [Row α] {c : Collection α} {row : α} {key : Key}

theorem mem_without {selects : α → Bool} {x : α} :
    x ∈ (c.without selects).rows ↔ x ∈ c.rows ∧ selects x = false := by
  simp [without, delete]

theorem remove?_eq_some (h : c.hasKey key = true) :
    ∃ d, c.remove? key = some d ∧ ∀ x, x ∈ d.rows ↔ x ∈ c.rows ∧ Row.key x ≠ key := by
  refine ⟨_, if_pos h, fun x => ?_⟩
  rw [mem_without, decide_eq_false_iff_not]

theorem insertNew?_eq_some (h : c.hasKey (Row.key row) = false) :
    ∃ d, c.insertNew? row = some d ∧ d.rows = c.rows ++ [row] :=
  ⟨_, if_neg (by rw [h]; exact Bool.false_ne_true), rows_insert h⟩

theorem replace?_eq_some (h : c.hasKey (Row.key row) = true) :
    ∃ d, c.replace? row = some d ∧
      d.rows = c.rows.map fun x => if Row.key x = Row.key row then row else x := by
  -- The row takes over a key that is there already, so the keys stay distinct.
  have hkeys : (c.rows.map fun x => if Row.key x = Row.key row then row else x).map Row.key =
      c.rows.map Row.key := by
    rw [List.map_map]
    refine List.map_congr_left fun x _ => ?_
    by_cases hx : Row.key x = Row.key row <;> simp [hx]
  let d : Collection α := ⟨_, hkeys ▸ c.keys_nodup⟩
  have hu : c.update (fun _ => row) (fun x => Row.key x = Row.key row) =
      .ok (d, (c.rows.filter fun x => Row.key x = Row.key row).map fun _ => row) :=
    update_eq_ok_iff.2 ⟨by simp [d], rfl⟩
  refine ⟨d, ?_, rfl⟩
  rw [replace?, if_pos h, hu]
  rfl

/-- **A row is put in place** if what is there is what the statement takes to be there. -/
theorem place?_eq_some {replaces : Bool} (h : c.hasKey (Row.key row) = replaces) :
    ∃ d, c.place? row replaces = some d ∧
      ∀ x, x ∈ d.rows ↔ (x ∈ c.rows ∧ Row.key x ≠ Row.key row) ∨ x = row := by
  cases replaces with
  | false =>
    obtain ⟨d, hd, hrows⟩ := insertNew?_eq_some h
    refine ⟨d, hd, fun x => ?_⟩
    rw [hrows, List.mem_append, List.mem_singleton]
    have hx : x ∈ c.rows → Row.key x ≠ Row.key row := hasKey_eq_false_iff.1 h x
    tauto
  | true =>
    obtain ⟨d, hd, hrows⟩ := replace?_eq_some h
    obtain ⟨y, hy, hyk⟩ := hasKey_iff_exists.1 h
    refine ⟨d, hd, fun x => ?_⟩
    rw [hrows, List.mem_map]
    constructor
    · intro h'
      obtain ⟨z, hz, rfl⟩ := h'
      by_cases hzk : Row.key z = Row.key row
      · exact .inr (if_pos hzk)
      · rw [if_neg hzk]
        exact .inl ⟨hz, hzk⟩
    · intro h'
      rcases h' with ⟨hx, hxk⟩ | rfl
      · exact ⟨x, hx, if_neg hxk⟩
      · exact ⟨y, hy, if_pos hyk⟩

end Collection

/-! ## One kind -/

/-- Getting and setting a collection of a catalog are about the same collection. -/
structure Part.Lawful {α : Type} [Row α] (part : Part α) : Prop where
  get_set : ∀ rows c, part.get (part.set rows c) = rows
  set_set : ∀ rows rows' c, part.set rows' (part.set rows c) = part.set rows' c
  set_get : ∀ c, part.set (part.get c) c = c

/-- Statements of a form remove the rows under keys from one collection. -/
structure Part.Removes {α β : Type} [Row α] (part : Part α) (mk : β → Statement) (key : β → Key) :
    Prop extends Lawful part where
  perform : ∀ b c, Catalog.perform? c (mk b) = part.modify? (·.remove? (key b)) c

/-- Statements of a form put rows in place in one collection. -/
structure Part.Places {α β : Type} [Row α] (part : Part α) (mk : β → Statement) (row : β → α)
    (replaces : β → Bool) : Prop extends Lawful part where
  perform : ∀ b c, Catalog.perform? c (mk b) = part.modify? (·.place? (row b) (replaces b)) c

namespace Part

theorem lawful_columns : columns.Lawful := ⟨fun _ _ => rfl, fun _ _ _ => rfl, fun _ => rfl⟩

theorem lawful_primaryKeys : primaryKeys.Lawful := ⟨fun _ _ => rfl, fun _ _ _ => rfl, fun _ => rfl⟩

theorem lawful_foreignKeys : foreignKeys.Lawful := ⟨fun _ _ => rfl, fun _ _ _ => rfl, fun _ => rfl⟩

theorem lawful_indexes : indexes.Lawful := ⟨fun _ _ => rfl, fun _ _ _ => rfl, fun _ => rfl⟩

theorem lawful_checks : checks.Lawful := ⟨fun _ _ => rfl, fun _ _ _ => rfl, fun _ => rfl⟩

theorem lawful_views : views.Lawful := ⟨fun _ _ => rfl, fun _ _ _ => rfl, fun _ => rfl⟩

theorem dropForeignKeys : foreignKeys.Removes
    (fun b : String × String => .dropConstraint b.1 b.2 .foreignKey) (fun b => .scoped b.1 b.2) :=
  ⟨lawful_foreignKeys, fun _ _ => rfl⟩

theorem dropViews : views.Removes Statement.dropView Key.single :=
  ⟨lawful_views, fun _ _ => rfl⟩

theorem dropChecks : checks.Removes (fun b : String × String => .dropConstraint b.1 b.2 .check)
    (fun b => .scoped b.1 b.2) :=
  ⟨lawful_checks, fun _ _ => rfl⟩

theorem dropIndexes : indexes.Removes Statement.dropIndex Row.key :=
  ⟨lawful_indexes, fun _ _ => rfl⟩

theorem dropPrimaryKeys : primaryKeys.Removes Statement.dropPrimaryKey Row.key :=
  ⟨lawful_primaryKeys, fun _ _ => rfl⟩

theorem dropColumns : columns.Removes Statement.dropColumn Row.key :=
  ⟨lawful_columns, fun _ _ => rfl⟩

theorem alterViews : views.Places Statement.alterView id fun _ => true :=
  ⟨lawful_views, fun _ _ => rfl⟩

theorem alterColumns : columns.Places
    (fun b : ColumnAlteration × Column × Bool × Bool =>
      .alterColumn b.1 b.2.1 b.2.2.1 b.2.2.2) (·.2.1) fun _ => true :=
  ⟨lawful_columns, fun _ _ => rfl⟩

theorem recreateColumns : columns.Places
    (fun b : Column × Bool => .recreateColumn b.1 b.2) Prod.fst fun _ => true :=
  ⟨lawful_columns, fun _ _ => rfl⟩

theorem addColumns : columns.Places
    (fun b : Column × Bool => .addColumn b.1 b.2) Prod.fst fun _ => false :=
  ⟨lawful_columns, fun _ _ => rfl⟩

theorem createPrimaryKeys : primaryKeys.Places Statement.createPrimaryKey id fun _ => false :=
  ⟨lawful_primaryKeys, fun _ _ => rfl⟩

theorem createIndexes : indexes.Places Statement.createIndex id fun _ => false :=
  ⟨lawful_indexes, fun _ _ => rfl⟩

theorem createForeignKeys : foreignKeys.Places Statement.createForeignKey id fun _ => false :=
  ⟨lawful_foreignKeys, fun _ _ => rfl⟩

theorem createChecks : checks.Places Statement.createCheck id fun _ => false :=
  ⟨lawful_checks, fun _ _ => rfl⟩

theorem createViews : views.Places
    (fun b : View × Bool => .createView b.1 b.2) Prod.fst Prod.snd :=
  ⟨lawful_views, fun _ _ => rfl⟩

end Part

section

variable {α β : Type} [Row α] {part : Part α} {mk : β → Statement}

theorem Catalog.replay?_cons {c d : Catalog} {s : Statement} {ss : List Statement}
    (h : c.perform? s = some d) : c.replay? (s :: ss) = d.replay? ss := by
  rw [replay?, List.foldlM_cons, h]
  rfl

theorem Catalog.replay?_append {c d : Catalog} {ss ts : List Statement}
    (h : c.replay? ss = some d) : c.replay? (ss ++ ts) = d.replay? ts := by
  rw [replay?] at h ⊢
  rw [List.foldlM_append, h]
  rfl

theorem Part.modify?_eq_some {f : Collection α → Option (Collection α)} {c : Catalog}
    {rows : Collection α} (h : f (part.get c) = some rows) :
    part.modify? f c = some (part.set rows c) := by
  rw [modify?, h]
  rfl

/-- **Statements that drop rows of one kind** leave the other rows. -/
theorem Catalog.replay?_removals {key : β → Key} (hp : part.Removes mk key) :
    ∀ {bs : List β} {c : Catalog}, (bs.map key).Nodup →
      (∀ b ∈ bs, (part.get c).hasKey (key b) = true) →
      ∃ rows, c.replay? (bs.map mk) = some (part.set rows c) ∧
        ∀ x, x ∈ rows.rows ↔ x ∈ (part.get c).rows ∧ ∀ b ∈ bs, Row.key x ≠ key b
  | [], c, _, _ => ⟨part.get c, by rw [hp.set_get]; rfl, by simp⟩
  | b :: bs, c, hn, hb => by
    obtain ⟨hbn, hn⟩ := List.nodup_cons.1 hn
    obtain ⟨d, hd, hdm⟩ := Collection.remove?_eq_some (hb b (List.mem_cons_self ..))
    have hc : c.perform? (mk b) = some (part.set d c) := by
      rw [hp.perform]
      exact Part.modify?_eq_some hd
    have hrest : ∀ b' ∈ bs, (part.get (part.set d c)).hasKey (key b') = true := by
      intro b' hb'
      obtain ⟨x, hx, e⟩ := Collection.hasKey_iff_exists.1 (hb b' (List.mem_cons_of_mem _ hb'))
      rw [hp.get_set]
      refine Collection.hasKey_iff_exists.2 ⟨x, (hdm x).2 ⟨hx, fun e' => ?_⟩, e⟩
      exact hbn (List.mem_map.2 ⟨b', hb', e.symm.trans e'⟩)
    obtain ⟨rows, hr, hrm⟩ := replay?_removals hp hn hrest
    rw [hp.get_set] at hrm
    refine ⟨rows, ?_, fun x => ?_⟩
    · rw [List.map_cons, replay?_cons hc, hr, hp.set_set]
    · rw [hrm, hdm, List.forall_mem_cons, and_assoc]

/-- **Statements that put rows of one kind in place** leave the rows under other keys. -/
theorem Catalog.replay?_placements {row : β → α} {replaces : β → Bool}
    (hp : part.Places mk row replaces) :
    ∀ {bs : List β} {c : Catalog}, (bs.map fun b => Row.key (row b)).Nodup →
      (∀ b ∈ bs, (part.get c).hasKey (Row.key (row b)) = replaces b) →
      ∃ rows, c.replay? (bs.map mk) = some (part.set rows c) ∧
        ∀ x, x ∈ rows.rows ↔
          (x ∈ (part.get c).rows ∧ ∀ b ∈ bs, Row.key x ≠ Row.key (row b)) ∨ ∃ b ∈ bs, row b = x
  | [], c, _, _ => ⟨part.get c, by rw [hp.set_get]; rfl, by simp⟩
  | b :: bs, c, hn, hb => by
    obtain ⟨hbn, hn⟩ := List.nodup_cons.1 hn
    have hne : ∀ b' ∈ bs, Row.key (row b) ≠ Row.key (row b') := fun b' hb' e =>
      hbn (List.mem_map.2 ⟨b', hb', e.symm⟩)
    obtain ⟨d, hd, hdm⟩ := Collection.place?_eq_some (hb b (List.mem_cons_self ..))
    have hc : c.perform? (mk b) = some (part.set d c) := by
      rw [hp.perform]
      exact Part.modify?_eq_some hd
    have hrest : ∀ b' ∈ bs,
        (part.get (part.set d c)).hasKey (Row.key (row b')) = replaces b' := by
      intro b' hb'
      rw [hp.get_set, ← hb b' (List.mem_cons_of_mem _ hb'), Bool.eq_iff_iff,
        Collection.hasKey_iff_exists, Collection.hasKey_iff_exists]
      refine exists_congr fun x => and_congr_left fun e => ?_
      rw [hdm]
      constructor
      · intro h
        rcases h with ⟨hx, -⟩ | rfl
        · exact hx
        · exact absurd e (hne b' hb')
      · intro hx
        exact .inl ⟨hx, fun e' => hne b' hb' (e'.symm.trans e)⟩
    obtain ⟨rows, hr, hrm⟩ := replay?_placements hp hn hrest
    rw [hp.get_set] at hrm
    refine ⟨rows, ?_, fun x => ?_⟩
    · rw [List.map_cons, replay?_cons hc, hr, hp.set_set]
    · rw [hrm, hdm, List.forall_mem_cons, List.exists_mem_cons_iff]
      constructor
      · intro h
        rcases h with ⟨⟨hx, hxb⟩ | rfl, hxs⟩ | hx
        · exact .inl ⟨hx, hxb, hxs⟩
        · exact .inr (.inl rfl)
        · exact .inr (.inr hx)
      · intro h
        rcases h with ⟨hx, hxb, hxs⟩ | rfl | hx
        · exact .inl ⟨.inl ⟨hx, hxb⟩, hxs⟩
        · exact .inl ⟨.inr rfl, hne⟩
        · exact .inr hx

end

end SchemaEvolution
