import SchemaEvolution.Proofs.RemovedKeys

/-!
# Keys that ride on columns are declared once

A primary key of one column that counts by itself is declared in the clause of the column. There
may be such a clause already, as the column is created or altered; if there is none, the column is
altered to no other end.

**Theorem (`Migration.riding_key_declared_once`).** Without renames, in either mode, let the target
have such a key on a table that is not created, and let the source have no key with the same columns
there. Then one statement declares a key of the table: it creates, recreates or alters that column,
and marks it as the new key. There is no statement for the key by itself, and no other column of the
table is marked.

The three sorts of clauses exclude each other (`Settled.Riding.eq_of_declares`): the column is
missing in the source, or an alteration of it counts, or neither is the case.
-/

namespace SchemaEvolution

namespace Statement

/-- The column that a statement marks as a primary key. -/
def keyColumn? : Statement → Option Column
  | .addColumn c true => some c
  | .recreateColumn c true => some c
  | .alterColumn _ c true _ => some c
  | _ => none

/-- Whether a statement declares a primary key on a table that is there: by itself, or in the clause
of a column that is not the key yet. -/
def declaresKeyOf (t : String) : Statement → Bool
  | .createPrimaryKey k => k.table == t
  | .addColumn c isKey => isKey && c.table == t
  | .recreateColumn c isKey => isKey && c.table == t
  | .alterColumn _ c isKey wasKey => isKey && !wasKey && c.table == t
  | _ => false

/-- A statement gives a column the clause that declares it as primary key. -/
inductive IsKeyClause (c : Column) : Statement → Prop
  | add : IsKeyClause c (.addColumn c true)
  | recreate : IsKeyClause c (.recreateColumn c true)
  | alter (a : ColumnAlteration) : IsKeyClause c (.alterColumn a c true false)

theorem IsKeyClause.declaresKeyOf {c : Column} {s : Statement} (h : s.IsKeyClause c) :
    s.declaresKeyOf c.table = true := by
  cases h <;> exact beq_self_eq_true _

end Statement

/-- Statements declare the primary key of a table once, in the clause of a column. -/
structure DeclaredOnce (c : Column) (ss : List Statement) : Prop where
  /-- One statement declares a key of the table, and it has the clause of the column. -/
  clause : ∃ s, s.IsKeyClause c ∧ ss.filter (·.declaresKeyOf c.table) = [s]
  /-- No key of the table is declared by itself. -/
  not_by_itself : ∀ k, k.table = c.table → .createPrimaryKey k ∉ ss
  /-- No other column of the table is marked. -/
  only : ∀ s ∈ ss, ∀ d, s.keyColumn? = some d → d.table = c.table → d = c

namespace Settled

variable {x : Settled} {mode : Mode} {k : PrimaryKey} {c d : Column} {s : Statement}

theorem mem_target_of_declared
    (h : (k ∈ (x.plan mode).difference.primaryKeys.created ∧
        (x.plan mode).creates k.table = false) ∨
      ∃ a ∈ (x.plan mode).alterations.primaryKeys, a.right = k) :
    k ∈ x.sides.target.primaryKeys.rows := by
  obtain ⟨hc, -⟩ | ha := h
  · exact (Collection.mem_created_iff.1 hc).1
  · exact ((Collection.exists_right_iff fun _ => mem_altered_primaryKeys).1 ha).1

theorem mem_target_of_altered_column
    (h : ∃ a ∈ (x.plan mode).alterations.columns, a.right = c) :
    c ∈ x.sides.target.columns.rows :=
  ((Collection.exists_right_iff fun _ => mem_altered_columns).1 h).1

/-- A marked column is the primary key in the target. -/
theorem isKey_of_marked (hs : s ∈ (x.plan mode).statements) (hd : s.keyColumn? = some d) :
    d ∈ x.sides.target.columns.rows ∧ (x.plan mode).isKey d = true := by
  cases s with
  | addColumn e isKey =>
    cases isKey with
    | false => cases hd
    | true =>
      obtain rfl := Option.some.inj hd
      obtain ⟨hc, -, hk⟩ := PlanInput.mem_addColumn.1 hs
      exact ⟨(Collection.mem_created_iff.1 hc).1, hk⟩
  | recreateColumn e isKey =>
    cases isKey with
    | false => cases hd
    | true =>
      obtain rfl := Option.some.inj hd
      obtain ⟨a, ha, -, hr, hk⟩ := PlanInput.mem_recreateColumn.1 hs
      exact ⟨mem_target_of_altered_column ⟨a, ha, hr⟩, hr ▸ hk⟩
  | alterColumn a e isKey wasKey =>
    cases isKey with
    | false => cases hd
    | true =>
      obtain rfl := Option.some.inj hd
      obtain ⟨ha, -, hr, hk, -⟩ | ⟨w, -, hw⟩ := PlanInput.mem_alterColumn.1 hs
      · exact ⟨mem_target_of_altered_column ⟨a, ha, hr⟩, hk⟩
      · obtain ⟨-, hw⟩ | ⟨-, _, _, right, -, -, -, hright, hw⟩ :=
          PlanInput.createPrimaryKey?_eq_some_iff.1 hw
        · cases hw
        · obtain ⟨-, rfl, hk, -⟩ := Statement.alterColumn.inj hw
          exact ⟨(Collection.get?_eq_some_iff.1 hright).1, hk⟩
  | _ => cases hd

/-- A primary key of the target that rides on a column, on a table that is not created, and that has
not been the key of the table before. -/
structure Riding (x : Settled) (k : PrimaryKey) (c : Column) : Prop where
  key : k ∈ x.sides.target.primaryKeys.rows
  column : c ∈ x.sides.target.columns.rows
  table : c.table = k.table
  sole : k.columns = [c.name]
  counts : c.autoIncrement = true
  there : x.sides.target.hasTable k.table = true → x.sides.source.hasTable k.table = true
  new : ∀ w ∈ x.sides.source.primaryKeys.rows, w.table = k.table → w.columns ≠ k.columns

namespace Riding

variable (h : x.Riding k c)
include h

theorem not_creates (mode : Mode) : (x.plan mode).creates c.table = false := by
  rw [← Bool.not_eq_true, Settlement.creates_iff, h.table]
  intro h'
  obtain ⟨ht, hs⟩ := h'
  cases hs.symm.trans (h.there ht)

theorem eq_key {w : PrimaryKey} (hw : w ∈ x.sides.target.primaryKeys.rows)
    (ht : w.table = c.table) : w = k :=
  Collection.eq_of_key_eq hw h.key (congrArg Key.single (ht.trans h.table))

theorem rides : x.sides.target.ridesOnColumn k = true :=
  Catalog.ridesOnColumn_eq_true_iff.2
    ⟨c.name, h.sole, c, h.column, congrArg (Key.scoped · c.name) h.table, h.counts⟩

theorem isKey_iff (hd : d ∈ x.sides.target.columns.rows) (ht : d.table = c.table) :
    (x.plan mode).isKey d = true ↔ d = c := by
  rw [PlanInput.isKey, Bool.and_eq_true_iff]
  constructor
  · intro h'
    obtain ⟨w, hw, hwt, hwc⟩ := Catalog.isSoleKey_eq_true_iff.1 h'.1
    rw [h.eq_key hw (hwt.trans ht), h.sole] at hwc
    exact Collection.eq_of_key_eq hd h.column (congrArg₂ Key.scoped ht (List.cons.inj hwc).1.symm)
  · rintro rfl
    exact ⟨Catalog.isSoleKey_eq_true_iff.2 ⟨k, h.key, h.table.symm, h.sole⟩, h.counts⟩

theorem not_wasKey (mode : Mode) : (x.plan mode).wasKey c = false := by
  rw [← Bool.not_eq_true, PlanInput.wasKey, Bool.and_eq_true_iff]
  intro h'
  obtain ⟨w, hw, hwt, hwc⟩ := Catalog.isSoleKey_eq_true_iff.1 h'.1
  exact h.new w hw (hwt.trans h.table) (hwc.trans h.sole.symm)

/-- The key is created, or its columns change. -/
theorem declared (mode : Mode) : (k ∈ (x.plan mode).difference.primaryKeys.created ∧
      (x.plan mode).creates k.table = false) ∨
    ∃ a ∈ (x.plan mode).alterations.primaryKeys, a.right = k := by
  cases hs : x.sides.source.primaryKeys.hasKey (Row.key k) with
  | false =>
    exact .inl ⟨Collection.mem_created_iff.2 ⟨h.key, hs⟩, h.table ▸ h.not_creates mode⟩
  | true =>
    obtain ⟨w, hw, e⟩ := Collection.hasKey_iff_exists.1 hs
    have hne : w.columns ≠ k.columns := h.new w hw (Key.single.inj e)
    obtain ⟨a, ha, hl, -⟩ : ∃ a ∈ (x.plan mode).alterations.primaryKeys, a.left = w ∧
        a.change .columns = some ⟨w.columns, k.columns⟩ :=
      exists_altered_of_columns hw h.key e hne
    obtain ⟨-, halters⟩ :=
      (Collection.exists_left_iff fun _ => mem_altered_primaryKeys).1 ⟨a, ha, hl⟩
    exact .inr ((Collection.exists_right_iff fun _ => mem_altered_primaryKeys).2
      ⟨h.key, e ▸ halters⟩)

/-- There is a clause of the column already if the column is created or altered. -/
theorem covers_iff : (x.plan mode).coversColumn c.table c.name = true ↔
    x.sides.source.columns.hasKey (Row.key c) = false ∨
      ∃ a ∈ (x.plan mode).alterations.columns, a.right = c := by
  simp only [PlanInput.coversColumn, Bool.or_eq_true, List.any_eq_true, Bool.and_eq_true,
    beq_iff_eq]
  refine or_congr ?_ ?_
  · constructor
    · intro h'
      obtain ⟨d, hd, ht, hn⟩ := h'
      obtain ⟨-, hno⟩ := Collection.mem_created_iff.1 hd
      rwa [show Row.key d = Row.key c from congrArg₂ Key.scoped ht hn] at hno
    · intro hno
      exact ⟨c, Collection.mem_created_iff.2 ⟨h.column, hno⟩, rfl, rfl⟩
  · constructor
    · intro h'
      obtain ⟨a, ha, ht, hn⟩ := h'
      have hr := mem_target_of_altered_column ⟨a, ha, rfl⟩
      exact ⟨a, ha, Collection.eq_of_key_eq hr h.column (congrArg₂ Key.scoped ht hn)⟩
    · intro h'
      obtain ⟨a, ha, rfl⟩ := h'
      exact ⟨a, ha, rfl, rfl⟩

theorem isKeyClause_alterColumn {a : ColumnAlteration} (ha : a.right = c) :
    ((x.plan mode).alterColumn a).IsKeyClause c := by
  have hkey : (x.plan mode).isKey c = true := (h.isKey_iff h.column rfl).2 rfl
  rw [PlanInput.alterColumn, ha, hkey, h.not_wasKey]
  split
  · exact .recreate
  · exact .alter a

/-- What declares a key of the table: the column is missing in the source and is added, or an
alteration of it counts, or it is altered for the key alone. -/
inductive Declares (x : Settled) (mode : Mode) (c : Column) : Statement → Prop
  | add (hno : x.sides.source.columns.hasKey (Row.key c) = false) :
      Declares x mode c (.addColumn c true)
  | alter {a : ColumnAlteration} (ha : a ∈ (x.plan mode).alterations.columns) (hr : a.right = c) :
      Declares x mode c ((x.plan mode).alterColumn a)
  | keyAlone {l : Column} (hno : (x.plan mode).coversColumn c.table c.name = false)
      (hl : x.sides.source.columns.get? (Row.key c) = some l) :
      Declares x mode c (.alterColumn (.unchanged l c) c true false)

theorem eq_of_marked (hs : s ∈ (x.plan mode).statements) (hd : s.keyColumn? = some d)
    (ht : d.table = c.table) : d = c :=
  (h.isKey_iff (isKey_of_marked hs hd).1 ht).1 (isKey_of_marked hs hd).2

theorem declares_of_mem (hs : s ∈ (x.plan mode).statements)
    (hd : s.declaresKeyOf c.table = true) : Declares x mode c s := by
  cases s with
  | createPrimaryKey w =>
    obtain ⟨hw, hno⟩ := PlanInput.mem_createPrimaryKey.1 hs
    rw [h.eq_key (mem_target_of_declared hw) (beq_iff_eq.1 hd)] at hno
    cases hno.symm.trans h.rides
  | addColumn d isKey =>
    obtain ⟨rfl, ht⟩ := Bool.and_eq_true_iff.1 hd
    obtain rfl := h.eq_of_marked hs rfl (beq_iff_eq.1 ht)
    exact .add (Collection.mem_created_iff.1 (PlanInput.mem_addColumn.1 hs).1).2
  | recreateColumn d isKey =>
    obtain ⟨rfl, ht⟩ := Bool.and_eq_true_iff.1 hd
    obtain rfl := h.eq_of_marked hs rfl (beq_iff_eq.1 ht)
    obtain ⟨a, ha, hnew, hr, hk⟩ := PlanInput.mem_recreateColumn.1 hs
    have e : (x.plan mode).alterColumn a = .recreateColumn d true := by
      rw [PlanInput.alterColumn, if_pos hnew, hk, hr]
    exact e ▸ .alter ha hr
  | alterColumn a d isKey wasKey =>
    obtain ⟨hkeys, ht⟩ := Bool.and_eq_true_iff.1 hd
    obtain ⟨rfl, -⟩ := Bool.and_eq_true_iff.1 hkeys
    obtain rfl := h.eq_of_marked hs rfl (beq_iff_eq.1 ht)
    obtain ⟨ha, hnew, hr, hk, hw⟩ | ⟨w, -, hw⟩ := PlanInput.mem_alterColumn.1 hs
    · have e : (x.plan mode).alterColumn a = .alterColumn a d true wasKey := by
        rw [PlanInput.alterColumn, if_neg (Bool.eq_false_iff.1 hnew), hr, hk, hw]
      exact e ▸ .alter ha hr
    · obtain ⟨-, hw⟩ | ⟨-, name, left, right, -, hno, hl, hright, hw⟩ :=
        PlanInput.createPrimaryKey?_eq_some_iff.1 hw
      · cases hw
      · obtain ⟨rfl, rfl, -, rfl⟩ := Statement.alterColumn.inj hw
        obtain ⟨hwt, rfl⟩ := Key.scoped.inj (Collection.get?_eq_some_iff.1 hright).2
        rw [← hwt] at hno hl
        rw [h.not_wasKey]
        exact .keyAlone hno hl
  | _ => cases hd

theorem mem_of_declares (hd : Declares x mode c s) : s ∈ (x.plan mode).statements := by
  cases hd with
  | add hno =>
    refine PlanInput.mem_addColumn.2 ⟨Collection.mem_created_iff.2 ⟨h.column, hno⟩, ?_, ?_⟩
    · exact h.not_creates mode
    · exact (h.isKey_iff h.column rfl).2 rfl
  | @alter a ha hr =>
    unfold PlanInput.alterColumn
    split
    next hnew => exact PlanInput.mem_recreateColumn.2 ⟨a, ha, hnew, rfl, rfl⟩
    next hnew =>
      exact PlanInput.mem_alterColumn.2 (.inl ⟨ha, Bool.eq_false_iff.2 hnew, rfl, rfl, rfl⟩)
  | @keyAlone l hno hl =>
    have hright : x.sides.target.columns.get? (Row.key c) = some c :=
      Collection.get?_eq_some_iff.2 ⟨h.column, rfl⟩
    have hkey : (x.plan mode).isKey c = true := (h.isKey_iff h.column rfl).2 rfl
    refine PlanInput.mem_alterColumn.2 (.inr ⟨k, h.declared mode, ?_⟩)
    refine PlanInput.createPrimaryKey?_eq_some_iff.2 (.inr ⟨h.rides, c.name, l, c, ?_⟩)
    rw [PrimaryKey.soleColumn?_eq_some_iff, ← h.table, hkey, h.not_wasKey mode]
    exact ⟨h.sole, hno, hl, hright, rfl⟩

theorem isKeyClause_of_declares (hd : Declares x mode c s) : s.IsKeyClause c := by
  cases hd with
  | add => exact .add
  | alter _ hr => exact h.isKeyClause_alterColumn hr
  | keyAlone => exact .alter _

/-- One of the three is the case. -/
theorem exists_declares (mode : Mode) : ∃ s, Declares x mode c s := by
  cases hcovers : (x.plan mode).coversColumn c.table c.name with
  | true =>
    obtain hno | ⟨a, ha, hr⟩ := h.covers_iff.1 hcovers
    · exact ⟨_, .add hno⟩
    · exact ⟨_, .alter ha hr⟩
  | false =>
    have hno := mt h.covers_iff.2 (Bool.eq_false_iff.1 hcovers)
    obtain ⟨l, hl⟩ := Option.isSome_iff_exists.1 (eq_true_of_ne_false fun e => hno (.inl e))
    exact ⟨_, .keyAlone hcovers hl⟩

/-- No two of the three are the case, and each of them leaves one statement. -/
theorem eq_of_declares {t : Statement} (hs : Declares x mode c s) (ht : Declares x mode c t) :
    s = t := by
  have halters {a : ColumnAlteration} (ha : a ∈ (x.plan mode).alterations.columns)
      (hr : a.right = c) : x.sides.source.columns.hasKey (Row.key c) = true := by
    have hat := (Collection.exists_right_iff fun _ => mem_altered_columns).1 ⟨a, ha, hr⟩
    exact hat.2.source
  cases hs with
  | add hno =>
    cases ht with
    | add => rfl
    | alter ha hr => cases hno.symm.trans (halters ha hr)
    | keyAlone hcovers => cases hcovers.symm.trans (h.covers_iff.2 (.inl hno))
  | @alter a ha hr =>
    cases ht with
    | add hno => cases hno.symm.trans (halters ha hr)
    | @alter b hb hrb =>
      rw [Collection.eq_of_right (fun _ => mem_altered_columns) ha hb (hr.trans hrb.symm)]
    | keyAlone hcovers => cases hcovers.symm.trans (h.covers_iff.2 (.inr ⟨_, ha, hr⟩))
  | keyAlone hcovers hl =>
    cases ht with
    | add hno => cases hcovers.symm.trans (h.covers_iff.2 (.inl hno))
    | alter ha hr => cases hcovers.symm.trans (h.covers_iff.2 (.inr ⟨_, ha, hr⟩))
    | keyAlone _ hl' => rw [Option.some.inj (hl.symm.trans hl')]

theorem declaredOnce (mode : Mode) : DeclaredOnce c (x.plan mode).statements where
  clause := by
    obtain ⟨s, hs⟩ := h.exists_declares mode
    refine ⟨s, h.isKeyClause_of_declares hs, List.perm_singleton.1 ?_⟩
    refine (List.perm_ext_iff_of_nodup ((x.plan mode).nodup_statements.filter _)
      (List.nodup_singleton s)).2 fun t => ?_
    rw [List.mem_filter, List.mem_singleton]
    constructor
    · intro ht
      exact h.eq_of_declares (h.declares_of_mem ht.1 ht.2) hs
    · rintro rfl
      exact ⟨h.mem_of_declares hs, (h.isKeyClause_of_declares hs).declaresKeyOf⟩
  not_by_itself w hw hs := by
    cases h.isKeyClause_of_declares (h.declares_of_mem hs (beq_iff_eq.2 hw))
  only _ hs _ hd ht := h.eq_of_marked hs hd ht

end Riding

end Settled

/-- **A key that rides on a column is declared once**, in the clause of the column. -/
theorem Migration.riding_key_declared_once {σ : Type} (options : MigrationOptions)
    (source target : Catalog) (a : σ) :
    ∃ m, Returns (Migration.between (.never : Resolver (StateM σ)) options source target) a m a ∧
      ∀ k ∈ target.primaryKeys.rows, (∀ d, .createTable d ∈ m.statements → d.name ≠ k.table) →
        (∀ w ∈ source.primaryKeys.rows, w.table = k.table → w.columns ≠ k.columns) →
          ∀ c ∈ target.columns.rows, c.table = k.table → k.columns = [c.name] →
            c.autoIncrement = true → DeclaredOnce c m.statements := by
  refine ⟨_, Migration.returns_between options (Sides.returns_settle_never ⟨source, target⟩ a), ?_⟩
  intro k hk hcreated hnew c hc hck hsole hcounts
  rw [Migration.statements_ofSettled] at hcreated ⊢
  refine Settled.Riding.declaredOnce ⟨hk, hc, hck, hsole, hcounts, fun ht => ?_, hnew⟩ options.mode
  by_contra hs
  obtain ⟨y, hy, hyk⟩ :=
    PlanInput.creates_iff.1 (Settlement.creates_iff.2 ⟨ht, Bool.eq_false_iff.2 hs⟩)
  exact hcreated _ (PlanInput.mem_createTable.2 ⟨y, hy, rfl⟩) hyk

/-- A key of two columns is replaced by one that rides on a column that stays as it is. -/
theorem Migration.riding_key_declared_once_of_counter :
    (∀ d, .createTable d ∈
        (Migration.ofSettled {} ⟨⟨counter ["id", "code"], counter ["id"]⟩, {}⟩).statements →
          d.name ≠ "orders") ∧
      (∀ w ∈ (counter ["id", "code"]).primaryKeys.rows, w.table = "orders" → w.columns ≠ ["id"]) ∧
      DeclaredOnce { table := "orders", name := "id", type := "int", autoIncrement := true }
        (Migration.ofSettled {} ⟨⟨counter ["id", "code"], counter ["id"]⟩, {}⟩).statements := by
  have hx := Sides.returns_settle_never ⟨counter ["id", "code"], counter ["id"]⟩ ()
  obtain ⟨m, hm, h⟩ :=
    Migration.riding_key_declared_once {} (counter ["id", "code"]) (counter ["id"]) ()
  rw [hm.unique (Migration.returns_between {} hx)] at h
  have hcreated : ∀ d, .createTable d ∈
      (Migration.ofSettled {} ⟨⟨counter ["id", "code"], counter ["id"]⟩, {}⟩).statements →
        d.name ≠ "orders" := by
    intro d hd
    rw [Migration.statements_ofSettled, PlanInput.mem_createTable] at hd
    obtain ⟨t, ht, -⟩ := hd
    cases ht
  have hnew : ∀ w ∈ (counter ["id", "code"]).primaryKeys.rows,
      w.table = "orders" → w.columns ≠ ["id"] := by decide
  exact ⟨hcreated, hnew, h ⟨"orders", "orders_pk", false, ["id"]⟩ (by decide) hcreated hnew _
    (by decide) rfl rfl rfl⟩

end SchemaEvolution
