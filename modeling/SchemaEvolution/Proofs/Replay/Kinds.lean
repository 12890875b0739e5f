import SchemaEvolution.Proofs.Replay.Courses
import SchemaEvolution.Proofs.Replay.Views

/-!
# Checks, indexes and keys

When all names are final, the phases that are left work on one kind of rows each. For checks,
indexes, primary keys and foreign keys, `Prepared` says what is there, and the schedule says what is
dropped and created. Together they are a course that reaches the target.

**A primary key that rides on its column** has no statements of its own, so on tables that are kept
there must be none (`Settled.KeysStand`).
-/

namespace SchemaEvolution

namespace PlanInput

/-- A key belongs to a table that is not dropped. -/
def Keeps (p : PlanInput) (k : Key) : Prop :=
  p.drops k.owner = false

/-- A key belongs to a table that is created. -/
def Makes (p : PlanInput) (k : Key) : Prop :=
  p.creates k.owner = true

theorem takes_iff {p : PlanInput} {e : Entity} {t : String} (h : e.owner? = some t) :
    p.Takes e ↔ p.drops t = true := by
  simp [Takes, h]

theorem brings_iff {p : PlanInput} {e : Entity} {t : String} (h : e.owner? = some t) :
    p.Brings e ↔ p.creates t = true ∧ p.declares e = true := by
  simp [Brings, h]

end PlanInput

/-! ## What is there -/

section

open Comparison
open Collection (AltersAt Course Mixed Reaches)

variable {x : Settled} {mode : Mode} {c : Catalog} {k : Key}

theorem Settled.keeps_of_target (h : x.sides.target.hasTable k.owner = true) :
    (x.plan mode).Keeps k := by
  rw [PlanInput.Keeps, ← Bool.not_eq_true, Settlement.drops_iff]
  intro h'
  obtain ⟨-, hno⟩ := h'
  cases hno.symm.trans h

theorem Settled.not_makes_of_source (h : x.sides.source.hasTable k.owner = true) :
    ¬(x.plan mode).Makes k := by
  rw [PlanInput.Makes, Settlement.creates_iff]
  intro h'
  obtain ⟨-, hno⟩ := h'
  cases hno.symm.trans h

/-- Rows of one kind in a prepared catalog. -/
theorem Prepared.mixed {α : Type} [Row α] {S P : Key → Prop} (h : Prepared x mode c)
    (part : Part α) (mk : α → Entity) (howner : ∀ y, (mk y).owner? = some (Row.key y).owner)
    (hmem : ∀ d y, mk y ∈ d.entities ↔ y ∈ (part.get d).rows)
    (hS : ∀ y ∈ (part.get x.sides.source).rows,
      ¬(x.plan mode).ReleasesRow (mk y) ∧ (x.plan mode).Keeps (Row.key y) ↔ S (Row.key y))
    (hP : ∀ y ∈ (part.get x.sides.target).rows,
      (x.plan mode).Makes (Row.key y) ∧ (x.plan mode).declares (mk y) = true ↔ P (Row.key y)) :
    Mixed (part.get x.sides.source) (part.get x.sides.target) S P (part.get c) := by
  intro y
  have ho : (mk y).owner? ≠ none := by
    rw [howner]
    exact Option.some_ne_none _
  rw [← hmem c, h.owned _ ho, hmem, hmem, PlanInput.takes_iff (howner y),
    PlanInput.brings_iff (howner y), Bool.not_eq_true]
  exact or_congr (and_congr_right (hS y)) (and_congr_right (hP y))

/-- The course of a kind whose rows belong to tables of their catalogs. -/
def Settled.course (x : Settled) (mode : Mode) {α φ : Type} {ν : φ → Type} [Row α]
    [Attributed α φ ν] (R : Redundancy α ν) {source target : Collection α}
    (hs : ∀ y ∈ source.rows, x.sides.source.hasTable (Row.key y).owner = true)
    (ht : ∀ y ∈ target.rows, x.sides.target.hasTable (Row.key y).owner = true)
    (early : Key → Prop) (hearly : ∀ k, early k → (x.plan mode).Makes k) :
    Course R source target where
  Kept := (x.plan mode).Keeps
  Early := early
  Changed := AltersAt R source target
  kept k hk := by
    obtain ⟨y, hy, rfl⟩ := Collection.hasKey_iff_exists.1 hk
    exact keeps_of_target (ht y hy)
  early k hk := by
    rw [Collection.hasKey_eq_false_iff]
    rintro y hy rfl
    exact not_makes_of_source (hs y hy) (hearly _ hk)
  changed _ ha := ha.source
  altered _ ha := ha

/-! ## Checks -/

variable {hs : x.sides.source.Owned} {ht : x.sides.target.Owned}

def Settled.checks (x : Settled) (mode : Mode) (hs : x.sides.source.Owned)
    (ht : x.sides.target.Owned) : Course (fun _ => redundantInCheck mode) x.sides.source.checks
      x.sides.target.checks :=
  x.course mode _ hs.checks ht.checks (x.plan mode).Makes fun _ hk => hk

theorem Prepared.checks (h : Prepared x mode c) (hs : x.sides.source.Owned)
    (ht : x.sides.target.Owned) : (x.checks mode hs ht).Start c.checks := by
  refine h.mixed .checks .check (fun _ => rfl)
    (fun _ _ => Catalog.check_mem_entities) (fun y _ => and_iff_right ?_) (fun y _ => ?_)
  · exact PlanInput.not_releasesRow nofun
  · exact and_iff_left rfl

theorem Settled.advances_dropChecks : (x.plan mode).Advances .dropChecks .checks
    (x.checks mode hs ht).Start (x.checks mode hs ht).Reduced := by
  refine (x.checks mode hs ht).advances_drops Phase.holds_dropChecks Part.dropChecks
    (fun b b' _ _ e => ?_) fun k => ?_
  · exact Prod.ext (Key.scoped.inj e).1 (Key.scoped.inj e).2
  · refine Iff.trans ?_ (Collection.exists_dropped_iff (fun _ => Settled.mem_altered_checks)
      (x.checks mode hs ht).kept)
    simp only [PlanInput.mem_dropCheck]
    constructor
    · intro h
      obtain ⟨b, ⟨y, hy, ht, hn⟩, rfl⟩ := h
      exact ⟨y, hy, congrArg₂ Key.scoped ht hn⟩
    · intro h
      obtain ⟨y, hy, rfl⟩ := h
      exact ⟨(y.table, y.name), ⟨y, hy, rfl, rfl⟩, rfl⟩

theorem Settled.advances_createChecks : (x.plan mode).Advances .createChecks .checks
    (x.checks mode hs ht).Reduced (Reaches (fun _ => redundantInCheck mode) x.sides.source.checks
      x.sides.target.checks) := by
  refine (x.checks mode hs ht).advances_creates Phase.holds_createChecks Part.createChecks
    fun w => ?_
  rw [PlanInput.mem_createCheck, ← Bool.not_eq_true]
  exact Collection.created_iff fun _ => Settled.mem_altered_checks

/-! ## Indexes -/

/-- The course of indexes. Unique indexes come with created tables, other ones on their own. -/
def Settled.indexes (x : Settled) (mode : Mode) (hs : x.sides.source.Owned)
    (ht : x.sides.target.Owned) : Course (fun _ => redundantInIndex mode) x.sides.source.indexes
      x.sides.target.indexes :=
  x.course mode _ hs.indexes ht.indexes (fun k => (x.plan mode).Makes k ∧
    ∃ w ∈ x.sides.target.indexes.rows, Row.key w = k ∧ w.isUnique = true) fun _ hk => hk.1

theorem Settled.indexes_early_iff {w : Index} (hw : w ∈ x.sides.target.indexes.rows) :
    (x.indexes mode hs ht).Early (Row.key w) ↔
      (x.plan mode).Makes (Row.key w) ∧ w.isUnique = true := by
  refine and_congr_right fun _ => ⟨?_, ?_⟩
  · intro h
    obtain ⟨w', hw', e, hu⟩ := h
    rwa [← Collection.eq_of_key_eq hw' hw e]
  · intro hu
    exact ⟨w, hw, rfl, hu⟩

theorem Prepared.indexes (h : Prepared x mode c) (hs : x.sides.source.Owned)
    (ht : x.sides.target.Owned) : (x.indexes mode hs ht).Start c.indexes := by
  refine h.mixed .indexes .index (fun _ => rfl)
    (fun _ _ => Catalog.index_mem_entities) (fun y _ => and_iff_right ?_) (fun y hy => ?_)
  · exact PlanInput.not_releasesRow nofun
  · exact (Settled.indexes_early_iff hy).symm

theorem Settled.advances_dropIndexes : (x.plan mode).Advances .dropIndexes .indexes
    (x.indexes mode hs ht).Start (x.indexes mode hs ht).Reduced := by
  have hmem : ∀ i, .dropIndex i ∈ (x.plan mode).statements → i ∈ x.sides.source.indexes.rows := by
    intro i hi
    rcases PlanInput.mem_dropIndex.1 hi with ⟨hd, -⟩ | ha
    · exact (Collection.mem_dropped_iff.1 hd).1
    · exact ((Collection.exists_left_iff fun _ => Settled.mem_altered_indexes).1 ha).1
  refine (x.indexes mode hs ht).advances_drops Phase.holds_dropIndexes Part.dropIndexes
    (fun i i' hi hi' e => Collection.eq_of_key_eq (hmem i hi) (hmem i' hi') e) fun k => ?_
  refine Iff.trans ?_ (Collection.exists_dropped_iff (fun _ => Settled.mem_altered_indexes)
    (x.indexes mode hs ht).kept)
  exact exists_congr fun i => and_congr_left fun _ => PlanInput.mem_dropIndex

theorem Settled.advances_createIndexes : (x.plan mode).Advances .createIndexes .indexes
    (x.indexes mode hs ht).Reduced (Reaches (fun _ => redundantInIndex mode) x.sides.source.indexes
      x.sides.target.indexes) := by
  refine (x.indexes mode hs ht).advances_creates Phase.holds_createIndexes Part.createIndexes
    fun w => ?_
  rw [PlanInput.mem_createIndex, ← Bool.not_eq_true, Bool.and_eq_true_iff]
  refine (Collection.created_iff fun _ => Settled.mem_altered_indexes).trans ?_
  refine and_congr_right fun hw => ?_
  rw [Settled.indexes_early_iff hw]
  rfl

/-! ## Primary keys -/

/-- No primary key of a table that both sides have rides on its column. -/
structure Settled.KeysStand (x : Settled) : Prop where
  source : ∀ k ∈ x.sides.source.primaryKeys.rows, x.sides.target.hasTable k.table = true →
    x.sides.source.ridesOnColumn k = false
  target : ∀ k ∈ x.sides.target.primaryKeys.rows, x.sides.source.hasTable k.table = true →
    x.sides.target.ridesOnColumn k = false

def Settled.primaryKeys (x : Settled) (mode : Mode) (hs : x.sides.source.Owned)
    (ht : x.sides.target.Owned) : Course (fun _ => redundantInPrimaryKey)
      x.sides.source.primaryKeys x.sides.target.primaryKeys :=
  x.course mode _ hs.primaryKeys ht.primaryKeys (x.plan mode).Makes fun _ hk => hk

theorem Prepared.primaryKeys (h : Prepared x mode c) (hs : x.sides.source.Owned)
    (ht : x.sides.target.Owned) : (x.primaryKeys mode hs ht).Start c.primaryKeys := by
  refine h.mixed .primaryKeys .primaryKey (fun _ => rfl)
    (fun _ _ => Catalog.primaryKey_mem_entities) (fun y _ => and_iff_right ?_) (fun y _ => ?_)
  · exact PlanInput.not_releasesRow nofun
  · exact and_iff_left rfl

theorem Settled.KeysStand.dropPrimaryKey_iff (h : x.KeysStand) (hs : x.sides.source.Owned)
    (ht : x.sides.target.Owned) {k : PrimaryKey} :
    .dropPrimaryKey k ∈ (x.plan mode).statements ↔
      (k ∈ (x.plan mode).difference.primaryKeys.dropped ∧ (x.plan mode).drops k.table = false) ∨
        ∃ a ∈ (x.plan mode).alterations.primaryKeys, a.left = k := by
  rw [PlanInput.mem_dropPrimaryKey]
  refine and_iff_left_of_imp fun hk => ?_
  rcases hk with ⟨hk, hd⟩ | hk
  · have hks := (Collection.mem_dropped_iff.1 hk).1
    refine h.source k hks ?_
    by_contra hno
    rw [← Bool.not_eq_true, Settlement.drops_iff] at hd
    exact hd ⟨hs.primaryKeys k hks, Bool.not_eq_true _ ▸ hno⟩
  · obtain ⟨hks, ha⟩ := (Collection.exists_left_iff fun _ => Settled.mem_altered_primaryKeys).1 hk
    obtain ⟨w, hw, e⟩ := Collection.hasKey_iff_exists.1 ha.target
    exact h.source k hks (Key.single.inj e ▸ ht.primaryKeys w hw)

theorem Settled.KeysStand.not_rides_of_created (h : x.KeysStand) (hs : x.sides.source.Owned)
    (ht : x.sides.target.Owned) {k : PrimaryKey}
    (hk : (k ∈ (x.plan mode).difference.primaryKeys.created ∧
        (x.plan mode).creates k.table = false) ∨
      ∃ a ∈ (x.plan mode).alterations.primaryKeys, a.right = k) :
    x.sides.target.ridesOnColumn k = false := by
  rcases hk with ⟨hk, hc⟩ | hk
  · have hkt := (Collection.mem_created_iff.1 hk).1
    refine h.target k hkt ?_
    by_contra hno
    rw [← Bool.not_eq_true, Settlement.creates_iff] at hc
    exact hc ⟨ht.primaryKeys k hkt, Bool.not_eq_true _ ▸ hno⟩
  · obtain ⟨hkt, ha⟩ := (Collection.exists_right_iff fun _ => Settled.mem_altered_primaryKeys).1 hk
    obtain ⟨w, hw, e⟩ := Collection.hasKey_iff_exists.1 ha.source
    exact h.target k hkt (Key.single.inj e ▸ hs.primaryKeys w hw)

theorem Settled.KeysStand.createPrimaryKey_iff (h : x.KeysStand) (hs : x.sides.source.Owned)
    (ht : x.sides.target.Owned) {k : PrimaryKey} :
    .createPrimaryKey k ∈ (x.plan mode).statements ↔
      (k ∈ (x.plan mode).difference.primaryKeys.created ∧
          (x.plan mode).creates k.table = false) ∨
        ∃ a ∈ (x.plan mode).alterations.primaryKeys, a.right = k := by
  rw [PlanInput.mem_createPrimaryKey]
  exact and_iff_left_of_imp (h.not_rides_of_created hs ht)

theorem Settled.advances_dropPrimaryKeys (h : x.KeysStand) :
    (x.plan mode).Advances .dropPrimaryKeys .primaryKeys (x.primaryKeys mode hs ht).Start
      (x.primaryKeys mode hs ht).Reduced := by
  have halt : ∀ a, a ∈ (x.plan mode).alterations.primaryKeys ↔ _ :=
    fun _ => Settled.mem_altered_primaryKeys
  have hmem : ∀ k, .dropPrimaryKey k ∈ (x.plan mode).statements →
      k ∈ x.sides.source.primaryKeys.rows := by
    intro k hk
    rcases (h.dropPrimaryKey_iff hs ht).1 hk with ⟨hd, -⟩ | ha
    · exact (Collection.mem_dropped_iff.1 hd).1
    · exact ((Collection.exists_left_iff halt).1 ha).1
  refine (x.primaryKeys mode hs ht).advances_drops Phase.holds_dropPrimaryKeys Part.dropPrimaryKeys
    (fun k l hk hl e => Collection.eq_of_key_eq (hmem k hk) (hmem l hl) e) fun k => ?_
  refine Iff.trans ?_ (Collection.exists_dropped_iff halt (x.primaryKeys mode hs ht).kept)
  exact exists_congr fun k => and_congr_left fun _ => h.dropPrimaryKey_iff hs ht

theorem Settled.advances_createPrimaryKeys (h : x.KeysStand) :
    (x.plan mode).Advances .createPrimaryKeys .primaryKeys (x.primaryKeys mode hs ht).Reduced
      (Reaches (fun _ => redundantInPrimaryKey) x.sides.source.primaryKeys
        x.sides.target.primaryKeys) := by
  refine (x.primaryKeys mode hs ht).advances_creates Phase.holds_createPrimaryKeys
    Part.createPrimaryKeys fun w => ?_
  rw [h.createPrimaryKey_iff hs ht, ← Bool.not_eq_true]
  exact Collection.created_iff fun _ => Settled.mem_altered_primaryKeys

/-! ## Foreign keys -/

/-- The course of foreign keys. They come with created tables unless they wait for other tables, and
they change if they are altered or rest on a primary key that changes. -/
def Settled.foreignKeys (x : Settled) (mode : Mode) (hs : x.sides.source.Owned)
    (ht : x.sides.target.Owned) : Course (fun _ => redundantInForeignKey mode)
      x.sides.source.foreignKeys x.sides.target.foreignKeys :=
  let course := x.course mode (fun _ => redundantInForeignKey mode) hs.foreignKeys ht.foreignKeys
    (fun k => (x.plan mode).Makes k ∧ (x.plan mode).defersForeignKeys = false) fun _ hk => hk.1
  { course with
    Changed := fun k => course.Changed k ∨ ∃ l, (x.plan mode).Rebuilds l ∧ Row.key l = k
    changed := by
      intro k h
      rcases h with ha | ⟨l, hl, rfl⟩
      · exact course.changed k ha
      · exact Collection.hasKey_key (mem_source_of_rebuilds hl)
    altered := fun k ha => .inl (course.altered k ha) }

/-- **Foreign keys have been dropped** when all names are final. -/
theorem Prepared.foreignKeys (h : Prepared x mode c) (hs : x.sides.source.Owned)
    (ht : x.sides.target.Owned) : (x.foreignKeys mode hs ht).Reduced c.foreignKeys := by
  refine h.mixed .foreignKeys .foreignKey (fun _ => rfl)
    (fun _ _ => Catalog.foreignKey_mem_entities) (fun y hy => ?_) (fun y _ => ?_)
  · rw [PlanInput.releasesRow_foreignKey]
    constructor
    · intro h'
      obtain ⟨hno, hk⟩ := h'
      constructor
      · by_contra hyt
        rw [Bool.not_eq_true] at hyt
        exact hno (.inl ⟨Collection.mem_dropped_iff.2 ⟨hy, hyt⟩, .inl hk⟩)
      · intro h'
        rcases h' with ha | ⟨l, hl, e⟩
        · refine hno (.inr (.inl ?_))
          exact (Collection.exists_left_iff fun _ => Settled.mem_altered_foreignKeys).2 ⟨hy, ha⟩
        · obtain rfl := Collection.eq_of_key_eq (Settled.mem_source_of_rebuilds hl) hy e
          exact hno (.inr (.inr hl))
    · intro h'
      obtain ⟨hyt, hno⟩ := h'
      refine ⟨?_, (x.foreignKeys mode hs ht).kept _ hyt⟩
      intro h'
      rcases h' with ⟨hd, -⟩ | ha | hr
      · cases (Collection.mem_dropped_iff.1 hd).2.symm.trans hyt
      · refine hno (.inl ?_)
        exact ((Collection.exists_left_iff fun _ => Settled.mem_altered_foreignKeys).1 ha).2
      · exact hno (.inr ⟨y, hr, rfl⟩)
  · exact and_congr_right fun _ => Bool.not_eq_true' _ ▸ Iff.rfl

theorem Settled.advances_createForeignKeys : (x.plan mode).Advances .createForeignKeys .foreignKeys
    (x.foreignKeys mode hs ht).Reduced (Reaches (fun _ => redundantInForeignKey mode)
      x.sides.source.foreignKeys x.sides.target.foreignKeys) := by
  refine (x.foreignKeys mode hs ht).advances_creates Phase.holds_createForeignKeys
    Part.createForeignKeys fun w => ?_
  have hearly : (x.plan mode).creates w.table = false ∨ (x.plan mode).defersForeignKeys = true ↔
      ¬(x.foreignKeys mode hs ht).Early (Row.key w) := by
    show _ ↔ ¬(_ ∧ _)
    rw [not_and_or, PlanInput.Makes, Bool.not_eq_true, Bool.not_eq_false]
    rfl
  have hrebuilt : (∃ l, (x.plan mode).Rebuilds l ∧
      x.sides.target.foreignKeys.get? (.scoped l.table l.name) = some w) ↔
      w ∈ x.sides.target.foreignKeys.rows ∧
        ∃ l, (x.plan mode).Rebuilds l ∧ Row.key l = Row.key w := by
    simp only [Collection.get?_eq_some_iff]
    constructor
    · intro h
      obtain ⟨l, hl, hw, e⟩ := h
      exact ⟨hw, l, hl, e.symm⟩
    · intro h
      obtain ⟨hw, l, hl, e⟩ := h
      exact ⟨l, hl, hw, e.symm⟩
  rw [PlanInput.mem_createForeignKey, hearly, ← or_assoc]
  refine (or_congr (Collection.created_iff fun _ => Settled.mem_altered_foreignKeys)
    hrebuilt).trans ?_
  rw [← and_or_left, or_assoc]
  rfl

end

end SchemaEvolution
