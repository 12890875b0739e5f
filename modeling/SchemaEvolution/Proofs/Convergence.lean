import SchemaEvolution.Proofs.Histories

/-!
# Migrations converge

A second migration to the same target, planned from where the first one has come, finds hardly
anything to do.

**Theorem (`Migration.second_run`).** Let both catalogs be closed, and let no primary key ride on
its column in a table that both of them have. From where the first migration has come, the second
one creates, drops and renames nothing. All that it alters are columns that have left their primary
key (`Settled.LeavesKey`), and of these only whether they may be null.

These columns are what the two runs see differently. The members of a primary key are never null,
so a delta of that sort is redundant as long as the column is in a primary key on either side. The
first run has dropped the key, and the second run finds the delta that the first one has left. Every
other delta is redundant in the second run if it was in the first one (`prune_column_iff`).
-/

namespace SchemaEvolution

open Comparison
open Collection (Reaches)

/-! ## Where nothing is left to do -/

namespace Alteration

variable {α φ : Type} {ν : φ → Type} [Attributed α φ ν] {R : Redundancy α ν} {l r : α}

/-- Rows between which no delta counts agree in every attribute whose deltas always count. -/
theorem get_eq_of_effective?_eq_none (f : φ) (h : effective? R l r = none)
    (hR : ∀ d, R (between l r) f d = false) : Attributed.get (α := α) f l = Attributed.get f r := by
  by_contra hne
  obtain ⟨a, ha, -⟩ := exists_effective? f hne hR
  cases h.symm.trans ha

end Alteration

namespace Collection

variable {α φ : Type} {ν : φ → Type} [Row α] [Attributed α φ ν] {R : Redundancy α ν}
  {source target c d : Collection α}

theorem SameKeys.created_eq_nil (h : c.SameKeys d) : (c.difference d).created = [] := by
  refine List.eq_nil_iff_forall_not_mem.2 fun x hx => ?_
  obtain ⟨hx, hno⟩ := mem_created_iff.1 hx
  rw [h, hasKey_key hx] at hno
  cases hno

theorem SameKeys.dropped_eq_nil (h : c.SameKeys d) : (c.difference d).dropped = [] := by
  refine List.eq_nil_iff_forall_not_mem.2 fun x hx => ?_
  obtain ⟨hx, hno⟩ := mem_dropped_iff.1 hx
  rw [← h, hasKey_key hx] at hno
  cases hno

theorem Reaches.effective?_eq_none (h : Reaches R source target c) {y w : α} (hy : y ∈ c.rows)
    (hw : w ∈ target.rows) (e : Row.key y = Row.key w) : Alteration.effective? R y w = none := by
  rcases h.rows y hy w hw e with rfl | ⟨-, hnone⟩
  · exact Alteration.effective?_self R y
  · exact hnone

theorem Reaches.altered_eq_nil (h : Reaches R source target c) :
    (c.difference target).altered.filterMap (fun b => b.prune (R b)) = [] := by
  refine List.eq_nil_iff_forall_not_mem.2 fun a ha => ?_
  obtain ⟨y, hy, w, hw, e, he⟩ := mem_effective_iff.1 ha
  cases (h.effective?_eq_none hy hw e).symm.trans he

end Collection

/-! ## Primary keys -/

namespace Comparison

variable {c : Catalog} {w : Column}

theorem inPrimaryKey_eq_true_iff : inPrimaryKey c w = true ↔
    ∃ k ∈ c.primaryKeys.rows, Row.key k = .single w.table ∧ w.name ∈ k.columns := by
  simp [inPrimaryKey, Catalog.primaryKeyOf?, Option.any_eq_true, Collection.get?_eq_some_iff,
    and_assoc]

theorem inPrimaryKey_of_isSoleKey (h : c.isSoleKey w = true) : inPrimaryKey c w = true := by
  obtain ⟨k, hk, e, hn⟩ := Catalog.isSoleKey_eq_true_iff.1 h
  exact inPrimaryKey_eq_true_iff.2 ⟨k, hk, congrArg Key.single e, hn ▸ List.mem_singleton_self _⟩

end Comparison

/-- A catalog that has been reached has the primary keys of the target, up to their names. -/
theorem Reached.inPrimaryKey_eq {x : Settled} {mode : Mode} {c : Catalog} (h : Reached x mode c)
    (w : Column) : inPrimaryKey c w = inPrimaryKey x.sides.target w := by
  have hcolumns : ∀ k ∈ c.primaryKeys.rows, ∀ l ∈ x.sides.target.primaryKeys.rows,
      Row.key k = Row.key l → k.columns = l.columns := by
    intro k hk l hl e
    exact Alteration.get_eq_of_effective?_eq_none PrimaryKey.Attribute.columns
      (h.primaryKeys.effective?_eq_none hk hl e) fun _ => rfl
  rw [Bool.eq_iff_iff, inPrimaryKey_eq_true_iff, inPrimaryKey_eq_true_iff]
  constructor
  · intro h'
    obtain ⟨k, hk, e, hn⟩ := h'
    obtain ⟨l, hl, el⟩ :=
      Collection.hasKey_iff_exists.1 ((h.primaryKeys.keys _).symm.trans (Collection.hasKey_key hk))
    exact ⟨l, hl, el.trans e, hcolumns k hk l hl el.symm ▸ hn⟩
  · intro h'
    obtain ⟨l, hl, e, hn⟩ := h'
    obtain ⟨k, hk, ek⟩ :=
      Collection.hasKey_iff_exists.1 ((h.primaryKeys.keys _).trans (Collection.hasKey_key hl))
    exact ⟨k, hk, ek.trans e, hcolumns k hk l hl ek ▸ hn⟩

/-! ## Columns -/

/-- The alteration of nothing but whether a column may be null. -/
def nullability (l w : Column) : ColumnAlteration :=
  ⟨l, w, fun
    | .notNull => Delta.between? l.notNull w.notNull
    | _ => none⟩

/-- The rules for columns inside and outside of a primary key differ in one attribute. -/
theorem redundantInColumn_congr {mode : Mode} {type : String} {f : Column.Attribute}
    (hf : f ≠ .notNull) (i j : Bool) :
    redundantInColumn mode i type f = redundantInColumn mode j type f := by
  cases f with
  | notNull => exact absurd rfl hf
  | _ => rfl

section

variable {mode : Mode} {i j : Bool} {l w : Column} {a : ColumnAlteration}

theorem nonempty?_nullability_iff :
    (nullability l w).nonempty? = some a ↔ l.notNull ≠ w.notNull ∧ nullability l w = a := by
  by_cases h : l.notNull = w.notNull
  · have hnone : (nullability l w).nonempty? = none := by
      refine Alteration.nonempty?_eq_none_iff.2 fun f => ?_
      cases f with
      | notNull => exact if_pos h
      | _ => rfl
    simp [hnone, h]
  · have hsome : (nullability l w).isEmpty = false := by
      rw [← Bool.not_eq_true, Alteration.isEmpty_eq_true_iff]
      intro hempty
      cases (if_neg h).symm.trans (hempty .notNull)
    simp [Alteration.nonempty?, hsome, h]

/-- If nothing else counts, there is only nullability, and that does not count in a key. -/
theorem prune_of_others (h : ∀ f, f ≠ .notNull → ((Alteration.between l w).change f).filter
    (fun d => !redundantInColumn mode j w.type f d) = none) :
    (Alteration.between l w).prune (redundantInColumn mode j w.type) =
      if j then none else (nullability l w).nonempty? := by
  cases j with
  | true =>
    refine Alteration.nonempty?_eq_none_iff.2 fun f => ?_
    by_cases hf : f = .notNull
    · subst hf
      exact Option.filter_eq_none_iff.2 fun _ _ => Bool.false_ne_true
    · exact h f hf
  | false =>
    refine congrArg Alteration.nonempty? (congrArg (Alteration.mk l w) (funext fun f => ?_))
    by_cases hf : f = .notNull
    · subst hf
      show (Delta.between? l.notNull w.notNull).filter (fun _ => true) = _
      cases Delta.between? l.notNull w.notNull <;> rfl
    · rw [h f hf]
      cases f with
      | notNull => exact absurd rfl hf
      | _ => rfl

/-- **What comes to count between two columns** between which nothing has counted. Whether they were
taken to be in a primary key is `i`, and whether they are now is `j`. -/
theorem prune_column_iff
    (h : (Alteration.between l w).prune (redundantInColumn mode i w.type) = none) :
    (Alteration.between l w).prune (redundantInColumn mode j w.type) = some a ↔
      l.notNull ≠ w.notNull ∧ i = true ∧ j = false ∧ nullability l w = a := by
  have hi (f : Column.Attribute) (_ : f ≠ .notNull) : ((Alteration.between l w).change f).filter
      (fun d => !redundantInColumn mode i w.type f d) = none :=
    Alteration.nonempty?_eq_none_iff.1 h f
  have hj (f : Column.Attribute) (hf : f ≠ .notNull) : ((Alteration.between l w).change f).filter
      (fun d => !redundantInColumn mode j w.type f d) = none := by
    rw [redundantInColumn_congr hf j i]
    exact hi f hf
  rw [prune_of_others hi] at h
  rw [prune_of_others hj]
  cases i with
  | true => cases j <;> simp [nonempty?_nullability_iff]
  | false =>
    -- Outside of a key, nullability would have counted before.
    have hnone : (nullability l w).nonempty? = none := h
    cases j <;> simp [hnone]

end

/-! ## The second run -/

namespace Settled

/-- A column leaves the primary key of its table. -/
def LeavesKey (x : Settled) (w : Column) : Prop :=
  inPrimaryKey x.sides.source w = true ∧ inPrimaryKey x.sides.target w = false

instance (x : Settled) (w : Column) : Decidable (x.LeavesKey w) :=
  inferInstanceAs (Decidable (_ ∧ _))

/-- The catalogs of another run to the same target, without renames. -/
def again (x : Settled) (c : Catalog) : Settled :=
  ⟨⟨c, x.sides.target⟩, {}⟩

end Settled

namespace Reached

variable {x : Settled} {mode : Mode} {c : Catalog} {w : Column} {s : Statement}

theorem scheduled_again (h : Reached x mode c) : ((x.again c).plan mode).scheduled =
    ((x.again c).plan mode).alterations.columns.map ((x.again c).plan mode).alterColumn := by
  have hk := h.sameKeys
  have hkeys : ((x.again c).plan mode).alterations.primaryKeys = [] := h.primaryKeys.altered_eq_nil
  have hfks : ((x.again c).plan mode).alterations.foreignKeys = [] := h.foreignKeys.altered_eq_nil
  have hindexes : ((x.again c).plan mode).alterations.indexes = [] := h.indexes.altered_eq_nil
  have hchecks : ((x.again c).plan mode).alterations.checks = [] := h.checks.altered_eq_nil
  have hviews : ((x.again c).plan mode).alterations.views = [] := h.views.altered_eq_nil
  have hd : ((x.again c).plan mode).difference = c.difference x.sides.target := rfl
  have hr : ((x.again c).plan mode).renames = {} := rfl
  simp [PlanInput.scheduled, PlanInput.tableStatements, PlanInput.columnStatements,
    PlanInput.primaryKeyStatements, PlanInput.indexStatements, PlanInput.foreignKeyStatements,
    PlanInput.checkStatements, PlanInput.viewStatements, hkeys, hfks, hindexes, hchecks, hviews,
    hd, hr, Catalog.difference, hk.tables.created_eq_nil, hk.tables.dropped_eq_nil,
    hk.columns.created_eq_nil, hk.columns.dropped_eq_nil, hk.primaryKeys.created_eq_nil,
    hk.primaryKeys.dropped_eq_nil, hk.foreignKeys.created_eq_nil, hk.foreignKeys.dropped_eq_nil,
    hk.indexes.created_eq_nil, hk.indexes.dropped_eq_nil, hk.checks.created_eq_nil,
    hk.checks.dropped_eq_nil, hk.views.created_eq_nil, hk.views.dropped_eq_nil]

/-- Another run alters the columns that have left their primary key. -/
theorem mem_altered_again (h : Reached x mode c) {a : ColumnAlteration} :
    a ∈ ((x.again c).plan mode).alterations.columns ↔
      ∃ l ∈ c.columns.rows, ∃ w ∈ x.sides.target.columns.rows, Row.key l = Row.key w ∧
        l.notNull ≠ w.notNull ∧ x.LeavesKey w ∧ nullability l w = a := by
  rw [Settled.mem_altered_columns]
  refine exists_congr fun l => and_congr_right fun hl => ?_
  refine exists_congr fun w => and_congr_right fun hw => and_congr_right fun e => ?_
  refine (prune_column_iff (h.columns.effective?_eq_none hl hw e)).trans ?_
  show _ ∧ _ ∧ (inPrimaryKey c w || inPrimaryKey x.sides.target w) = false ∧ _ ↔ _
  rw [h.inPrimaryKey_eq, Settled.LeavesKey]
  simp only [Alteration.between, Bool.or_self, Bool.or_eq_true]
  constructor
  · intro h'
    obtain ⟨hne, hi, hj, ha⟩ := h'
    refine ⟨hne, ⟨?_, hj⟩, ha⟩
    rcases hi with hi | hi
    · exact hi
    · cases hj.symm.trans hi
  · intro h'
    obtain ⟨hne, ⟨hi, hj⟩, ha⟩ := h'
    exact ⟨hne, .inl hi, hj, ha⟩

/-- No primary key is declared with a column that has left its key. -/
theorem alterColumn_again {l : Column} (hw : x.LeavesKey w) :
    ((x.again c).plan mode).alterColumn (nullability l w) =
      .alterColumn (nullability l w) w false false := by
  have hno : x.sides.target.isSoleKey w = false := by
    rw [← Bool.not_eq_true]
    intro hsole
    cases hw.2.symm.trans (inPrimaryKey_of_isSoleKey hsole)
  have hp : ((x.again c).plan mode).target = x.sides.target := rfl
  unfold PlanInput.alterColumn
  simp [nullability, PlanInput.isKey, PlanInput.wasKey, hp, hno]

/-- **What another run does**: it alters the columns that have left their primary key and
differ in whether they may be null. -/
theorem mem_statements_again (h : Reached x mode c) :
    s ∈ ((x.again c).plan mode).statements ↔
      ∃ l ∈ c.columns.rows, ∃ w ∈ x.sides.target.columns.rows, Row.key l = Row.key w ∧
        l.notNull ≠ w.notNull ∧ x.LeavesKey w ∧
          s = .alterColumn (nullability l w) w false false := by
  rw [PlanInput.mem_statements, h.scheduled_again, List.mem_map]
  constructor
  · intro h'
    obtain ⟨a, ha, rfl⟩ := h'
    obtain ⟨l, hl, w, hw, e, hne, hleaves, rfl⟩ := h.mem_altered_again.1 ha
    exact ⟨l, hl, w, hw, e, hne, hleaves, alterColumn_again hleaves⟩
  · intro h'
    obtain ⟨l, hl, w, hw, e, hne, hleaves, rfl⟩ := h'
    exact ⟨_, h.mem_altered_again.2 ⟨l, hl, w, hw, e, hne, hleaves, rfl⟩, alterColumn_again hleaves⟩

end Reached

/-- **Migrations converge**, up to the nullability of columns that leave their primary key. -/
theorem Migration.second_run {σ τ : Type} {r : Resolver (StateM σ)} {options : MigrationOptions}
    {source target : Catalog} {a b : σ} {m : Migration} (hs : source.Closed) (ht : target.Closed)
    (h : Returns (Migration.between r options source target) a m b) (u : τ) :
    ∃ x, Returns (Sides.settle r ⟨source, target⟩) a x b ∧ Migration.ofSettled options x = m ∧
      target.SameButNames x.sides.target ∧ (x.renames.KeysStand source target →
        ∃ c, source.replay? m.statements = some c ∧
          ∃ m', Returns (Migration.between (.never : Resolver (StateM τ)) options c x.sides.target)
              u m' u ∧ m'.statements.Nodup ∧
            ∀ s, s ∈ m'.statements ↔ ∃ l ∈ c.columns.rows, ∃ w ∈ x.sides.target.columns.rows,
              Row.key l = Row.key w ∧ l.notNull ≠ w.notNull ∧ x.LeavesKey w ∧
                s = .alterColumn (nullability l w) w false false) := by
  obtain ⟨x, hx, rfl⟩ := Migration.returns_between_iff.1 h
  obtain ⟨middle, hm⟩ := exists_settlement hx
  refine ⟨x, hx, rfl, hm.kept, fun hk => ?_⟩
  obtain ⟨c, hc, hreach⟩ := hm.exists_reached hs ht hk options.mode
  rw [Migration.statements_ofSettled]
  refine ⟨c, hc, .ofSettled options (x.again c), ?_, ?_⟩
  · exact Migration.returns_between options (Sides.returns_settle_never ⟨c, x.sides.target⟩ u)
  · rw [Migration.statements_ofSettled]
    exact ⟨PlanInput.nodup_statements _, fun _ => hreach.mem_statements_again⟩

theorem Migration.second_run_of_chain :
    (chain "items" "int").Closed ∧ (chain "entries" "bigint").Closed ∧
      Returns (Migration.between (RenameTable.resolver ⟨[("items", "entries")]⟩) {}
        (chain "items" "int") (chain "entries" "bigint")) () (.ofSettled {} renamedChain) () ∧
      renamedChain.renames.KeysStand (chain "items" "int") (chain "entries" "bigint") ∧
      ∃ c, (chain "items" "int").replay? (Migration.ofSettled {} renamedChain).statements = some c ∧
        ∃ m, Returns (Migration.between (.never : Resolver (StateM Unit)) {} c
          (chain "entries" "bigint")) () m () ∧ m.statements = [] := by
  have hs := closed_chain "items" "int"
  have ht := closed_chain "entries" "bigint"
  have hx := returns_settle_renamedChain
  have h := Migration.returns_between {} hx
  have hk := keysStand_renamedChain
  have hstays : ∀ w ∈ renamedChain.sides.target.columns.rows, ¬renamedChain.LeavesKey w := by decide
  refine ⟨hs, ht, h, hk, ?_⟩
  obtain ⟨y, hy, -, -, hrun⟩ := Migration.second_run hs ht h ()
  obtain rfl := hx.unique hy
  obtain ⟨c, hc, m, hm, -, hmem⟩ := hrun hk
  refine ⟨c, hc, m, hm, List.eq_nil_iff_forall_not_mem.2 fun s hmem' => ?_⟩
  obtain ⟨l, -, w, hw, -, -, hleaves, -⟩ := (hmem s).1 hmem'
  exact hstays w hw hleaves

/-- Badges have a number, which may be null or not. -/
def badges (notNull : Bool) (keys : Collection PrimaryKey) : Catalog where
  tables := ⟨[⟨"badges"⟩], List.nodup_singleton _⟩
  columns := ⟨[{ table := "badges", name := "number", type := "int", notNull }],
    List.nodup_singleton _⟩
  primaryKeys := keys

/-- The primary key of badges that are known by their number. -/
def badgeKey : Collection PrimaryKey :=
  ⟨[⟨"badges", "badges_pk", false, ["number"]⟩], List.nodup_singleton _⟩

/-- **The nullability of a column is left behind** when the column leaves its primary key: the first
run drops the key, and the second run is not empty. -/
theorem Migration.nullability_left_behind :
    (badges true badgeKey).Closed ∧ (badges false .empty).Closed ∧
      Renames.KeysStand {} (badges true badgeKey) (badges false .empty) ∧
      ∃ m m', Returns (Migration.between (.never : Resolver (StateM Unit)) {} (badges true badgeKey)
          (badges false .empty)) () m () ∧
        (badges true badgeKey).replay? m.statements = some (badges true .empty) ∧
        Returns (Migration.between (.never : Resolver (StateM Unit)) {} (badges true .empty)
          (badges false .empty)) () m' () ∧ m'.statements ≠ [] := by
  have h₁ := Migration.returns_between {}
    (Sides.returns_settle_never ⟨badges true badgeKey, badges false .empty⟩ ())
  have h₂ := Migration.returns_between {}
    (Sides.returns_settle_never ⟨badges true .empty, badges false .empty⟩ ())
  have hstand : Renames.KeysStand {} (badges true badgeKey) (badges false .empty) := by
    constructor <;> decide
  have hm : (Migration.ofSettled {}
      ⟨⟨badges true badgeKey, badges false .empty⟩, {}⟩).statements =
        [.dropPrimaryKey ⟨"badges", "badges_pk", false, ["number"]⟩] := by
    decide
  refine ⟨by decide, by decide, hstand, _, _, h₁, ?_, h₂, by decide⟩
  rw [hm]
  rfl

end SchemaEvolution
