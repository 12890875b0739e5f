import SchemaEvolution.Proofs.Replay.Kinds

/-!
# Columns and views

Columns and views that change are not dropped: a statement puts the row of the target in the
place of the one under its key. Which of two statements does so depends on the alteration
(`Collection.AltersBy`).

**Columns** are altered, made anew or added before keys and indexes are created, and dropped after
that. **Views** are altered early, and created or replaced at the end.
-/

namespace SchemaEvolution

namespace Collection

variable {α φ : Type} {ν : φ → Type} [Row α] [Attributed α φ ν] {R : Redundancy α ν}
  {source target : Collection α} {alts : List (Alteration α ν)} {q : Alteration α ν → Bool}
  {answer : Bool} {k : Key}

/-- There is an alteration at a key for which a test has a certain outcome. -/
def AltersBy (alts : List (Alteration α ν)) (q : Alteration α ν → Bool) (answer : Bool) (k : Key) :
    Prop :=
  ∃ a ∈ alts, q a = answer ∧ Row.key a.right = k

theorem altersBy_or (h : ∀ a, a ∈ alts ↔ ∃ l ∈ source.rows, ∃ r ∈ target.rows,
    Row.key l = Row.key r ∧ Alteration.effective? R l r = some a) :
    AltersBy alts q false k ∨ AltersBy alts q true k ↔ AltersAt R source target k := by
  constructor
  · intro h'
    rcases h' with ⟨a, ha, -, rfl⟩ | ⟨a, ha, -, rfl⟩
    · exact ((exists_right_iff h).1 ⟨a, ha, rfl⟩).2
    · exact ((exists_right_iff h).1 ⟨a, ha, rfl⟩).2
  · intro hk
    obtain ⟨w, hw, rfl⟩ := hasKey_iff_exists.1 hk.target
    obtain ⟨a, ha, rfl⟩ := (exists_right_iff h).2 ⟨hw, hk⟩
    cases hq : q a with
    | false => exact .inl ⟨a, ha, hq, rfl⟩
    | true => exact .inr ⟨a, ha, hq, rfl⟩

theorem AltersBy.altersAt (h : ∀ a, a ∈ alts ↔ ∃ l ∈ source.rows, ∃ r ∈ target.rows,
    Row.key l = Row.key r ∧ Alteration.effective? R l r = some a)
    (hk : AltersBy alts q answer k) : AltersAt R source target k := by
  obtain ⟨a, ha, -, rfl⟩ := hk
  exact ((exists_right_iff h).1 ⟨a, ha, rfl⟩).2

end Collection

section

open Comparison
open Collection (AltersAt AltersBy Mixed Reaches)

variable {x : Settled} {mode : Mode} {c : Catalog} {k : Key} {hs : x.sides.source.Owned}
  {ht : x.sides.target.Owned}

/-! ## Columns -/

/-- Columns that change need a new column, or not. -/
def Settled.ColumnsAlterBy (x : Settled) (mode : Mode) : Bool → Key → Prop :=
  AltersBy (x.plan mode).alterations.columns fun a =>
    (a.change .generated).any Generated.needsNewColumn

/-- Columns change. -/
def Settled.ColumnsAlter (x : Settled) (mode : Mode) : Key → Prop :=
  AltersAt (redundantBetween mode x.sides.source x.sides.target) x.sides.source.columns
    x.sides.target.columns

theorem Settled.columnsAlter_iff :
    x.ColumnsAlterBy mode false k ∨ x.ColumnsAlterBy mode true k ↔ x.ColumnsAlter mode k :=
  Collection.altersBy_or fun _ => mem_altered_columns

theorem Settled.ColumnsAlterBy.altersAt {answer : Bool} (h : x.ColumnsAlterBy mode answer k) :
    x.ColumnsAlter mode k :=
  Collection.AltersBy.altersAt (fun _ => mem_altered_columns) h

/-- Columns as they are where `changed` says that the target has come. -/
def Settled.ColumnsUpTo (x : Settled) (mode : Mode) (changed : Key → Prop) :
    Collection Column → Prop :=
  Mixed x.sides.source.columns x.sides.target.columns
    (fun k => (x.plan mode).Keeps k ∧ ¬changed k) (fun k => (x.plan mode).Makes k ∨ changed k)

theorem Prepared.columns (h : Prepared x mode c) :
    x.ColumnsUpTo mode (fun _ => False) c.columns := by
  refine h.mixed .columns .column (fun _ => rfl)
    (fun _ _ => Catalog.column_mem_entities) (fun y _ => ?_) (fun y _ => ?_)
  · have hrel : ¬(x.plan mode).ReleasesRow (.column y) := PlanInput.not_releasesRow nofun
    simp [hrel]
  · simp [PlanInput.declares]

/-- What is altered next is still there, from the source or already from the target. -/
theorem Settled.ColumnsAlter.there (ht : x.sides.target.Owned) (h : x.ColumnsAlter mode k)
    (changed : Key → Prop) :
    x.sides.source.columns.hasKey k = true ∧ (x.plan mode).Keeps k ∧ ¬changed k ∨
      x.sides.target.columns.hasKey k = true ∧ ((x.plan mode).Makes k ∨ changed k) := by
  obtain ⟨w, hw, rfl⟩ := Collection.hasKey_iff_exists.1 h.target
  by_cases hdone : changed (Row.key w)
  · exact .inr ⟨h.target, .inr hdone⟩
  · exact .inl ⟨h.source, keeps_of_target (ht.columns w hw), hdone⟩

/-- **No primary key comes to ride on a column**, so columns are altered for their own sake. -/
theorem Settled.KeysStand.alterColumn_iff (h : x.KeysStand) (hs : x.sides.source.Owned)
    (ht : x.sides.target.Owned) {a : ColumnAlteration} {w : Column} {isKey wasKey : Bool} :
    .alterColumn a w isKey wasKey ∈ (x.plan mode).statements ↔
      a ∈ (x.plan mode).alterations.columns ∧
        (a.change .generated).any Generated.needsNewColumn = false ∧ a.right = w ∧
          (x.plan mode).isKey w = isKey ∧ (x.plan mode).wasKey w = wasKey := by
  rw [PlanInput.mem_alterColumn]
  refine or_iff_left ?_
  intro hride
  obtain ⟨k, hk, e⟩ := hride
  rcases PlanInput.createPrimaryKey?_eq_some_iff.1 e with ⟨-, e⟩ | ⟨hr, -⟩
  · cases e
  · cases (h.not_rides_of_created hs ht hk).symm.trans hr

theorem Settled.KeysStand.exists_alterColumn_iff (h : x.KeysStand) (hs : x.sides.source.Owned)
    (ht : x.sides.target.Owned) : (∃ b : ColumnAlteration × Column × Bool × Bool,
      .alterColumn b.1 b.2.1 b.2.2.1 b.2.2.2 ∈ (x.plan mode).statements ∧ Row.key b.2.1 = k) ↔
        x.ColumnsAlterBy mode false k := by
  simp only [h.alterColumn_iff hs ht]
  constructor
  · intro hb
    obtain ⟨b, ⟨ha, hq, hr, -⟩, rfl⟩ := hb
    exact ⟨b.1, ha, hq, congrArg Row.key hr⟩
  · intro hk
    obtain ⟨a, ha, hq, rfl⟩ := hk
    exact ⟨(a, a.right, (x.plan mode).isKey a.right, (x.plan mode).wasKey a.right),
      ⟨ha, hq, rfl, rfl, rfl⟩, rfl⟩

theorem Settled.advances_alterColumns (h : x.KeysStand) (hs : x.sides.source.Owned)
    (ht : x.sides.target.Owned) : (x.plan mode).Advances .alterColumns .columns
      (x.ColumnsUpTo mode fun _ => False) (x.ColumnsUpTo mode (x.ColumnsAlterBy mode false)) := by
  refine ((x.plan mode).advances_replacements Phase.holds_alterColumns Part.alterColumns
    (fun b b' hb hb' e => ?_) (fun b hb => ?_) (fun k => h.exists_alterColumn_iff hs ht)
    fun k hk => hk.altersAt.there ht fun _ => False).imp fun rows hm =>
      hm.congr (fun k _ => ?_) (fun k _ => ?_)
  · obtain ⟨ha, -, hr, hi, hw⟩ := (h.alterColumn_iff hs ht).1 hb
    obtain ⟨ha', -, hr', hi', hw'⟩ := (h.alterColumn_iff hs ht).1 hb'
    have hab : b.1 = b'.1 := Collection.eq_of_right (fun _ => Settled.mem_altered_columns) ha ha'
      (hr.trans (e.trans hr'.symm))
    refine Prod.ext hab (Prod.ext e (Prod.ext ?_ ?_))
    · rw [← hi, ← hi', show b.2.1 = b'.2.1 from e]
    · rw [← hw, ← hw', show b.2.1 = b'.2.1 from e]
  · obtain ⟨ha, -, hr, -⟩ := (h.alterColumn_iff hs ht).1 hb
    exact ((Collection.exists_right_iff fun _ => Settled.mem_altered_columns).1 ⟨b.1, ha, hr⟩).1
  · simp
  · simp

theorem Settled.exists_recreateColumn_iff : (∃ b : Column × Bool,
    .recreateColumn b.1 b.2 ∈ (x.plan mode).statements ∧ Row.key b.1 = k) ↔
      x.ColumnsAlterBy mode true k := by
  simp only [PlanInput.mem_recreateColumn]
  constructor
  · intro hb
    obtain ⟨b, ⟨a, ha, hq, hr, -⟩, rfl⟩ := hb
    exact ⟨a, ha, hq, congrArg Row.key hr⟩
  · intro hk
    obtain ⟨a, ha, hq, rfl⟩ := hk
    exact ⟨(a.right, (x.plan mode).isKey a.right), ⟨a, ha, hq, rfl, rfl⟩, rfl⟩

theorem Settled.advances_recreateColumns (ht : x.sides.target.Owned) :
    (x.plan mode).Advances .recreateColumns .columns
      (x.ColumnsUpTo mode (x.ColumnsAlterBy mode false))
      (x.ColumnsUpTo mode (x.ColumnsAlter mode)) := by
  refine ((x.plan mode).advances_replacements Phase.holds_recreateColumns Part.recreateColumns
    (fun b b' hb hb' e => ?_) (fun b hb => ?_) (fun k => Settled.exists_recreateColumn_iff)
    fun k hk => hk.altersAt.there ht (x.ColumnsAlterBy mode false)).imp fun rows hm =>
      hm.congr (fun k _ => ?_) (fun k _ => ?_)
  · obtain ⟨a, -, -, hr, hi⟩ := PlanInput.mem_recreateColumn.1 hb
    obtain ⟨a', -, -, hr', hi'⟩ := PlanInput.mem_recreateColumn.1 hb'
    refine Prod.ext e ?_
    rw [← hi, ← hi', hr, hr', show b.1 = b'.1 from e]
  · obtain ⟨a, ha, -, hr, -⟩ := PlanInput.mem_recreateColumn.1 hb
    exact ((Collection.exists_right_iff fun _ => Settled.mem_altered_columns).1 ⟨a, ha, hr⟩).1
  · rw [← Settled.columnsAlter_iff, not_or, and_assoc]
  · rw [← Settled.columnsAlter_iff, or_assoc]

/-- Columns of the target that are altered or that the source does not have. -/
def Settled.ColumnsDiffer (x : Settled) (mode : Mode) (k : Key) : Prop :=
  x.ColumnsAlter mode k ∨ x.sides.source.columns.hasKey k = false

theorem Settled.added_of_addColumn {w : Column} {isKey : Bool}
    (h : .addColumn w isKey ∈ (x.plan mode).statements) :
    w ∈ x.sides.target.columns.rows ∧ x.sides.source.columns.hasKey (Row.key w) = false ∧
      ¬(x.plan mode).Makes (Row.key w) := by
  obtain ⟨hc, hno, -⟩ := PlanInput.mem_addColumn.1 h
  obtain ⟨hw, hs⟩ := Collection.mem_created_iff.1 hc
  exact ⟨hw, hs, Bool.not_eq_true _ ▸ hno⟩

theorem Settled.exists_addColumn_iff (ht : x.sides.target.columns.hasKey k = true) :
    (∃ b : Column × Bool, .addColumn b.1 b.2 ∈ (x.plan mode).statements ∧ Row.key b.1 = k) ↔
      x.sides.source.columns.hasKey k = false ∧ ¬(x.plan mode).Makes k := by
  constructor
  · intro hb
    obtain ⟨b, hb, rfl⟩ := hb
    exact (added_of_addColumn hb).2
  · intro hk
    obtain ⟨w, hw, rfl⟩ := Collection.hasKey_iff_exists.1 ht
    refine ⟨(w, (x.plan mode).isKey w), PlanInput.mem_addColumn.2 ⟨?_, ?_, rfl⟩, rfl⟩
    · exact Collection.mem_created_iff.2 ⟨hw, hk.1⟩
    · exact Bool.not_eq_true _ ▸ hk.2

theorem Settled.advances_addColumns : (x.plan mode).Advances .addColumns .columns
    (x.ColumnsUpTo mode (x.ColumnsAlter mode)) (x.ColumnsUpTo mode (x.ColumnsDiffer mode)) := by
  refine ((x.plan mode).advances_placements Phase.holds_addColumns Part.addColumns
    (fun b b' hb hb' e => ?_) (fun b hb => (Settled.added_of_addColumn hb).1)
    fun rows hm b hb => ?_).imp fun rows hm => hm.congr (fun k hk => ?_) (fun k hk => ?_)
  · refine Prod.ext e ?_
    rw [← (PlanInput.mem_addColumn.1 hb).2.2, ← (PlanInput.mem_addColumn.1 hb').2.2,
      show b.1 = b'.1 from e]
  · obtain ⟨-, hno, hc⟩ := Settled.added_of_addColumn hb
    refine Collection.Mixed.hasKey_eq_false_iff hm |>.2 ⟨fun hyes => ?_, fun _ => ?_⟩
    · cases hno.symm.trans hyes
    · refine not_or.2 ⟨hc, fun ha => ?_⟩
      cases hno.symm.trans ha.source
  · have hadd : ¬∃ b : Column × Bool,
        .addColumn b.1 b.2 ∈ (x.plan mode).statements ∧ Row.key b.1 = k := by
      intro hb
      obtain ⟨b, hb, rfl⟩ := hb
      cases (Settled.added_of_addColumn hb).2.1.symm.trans hk
    simp [Settled.ColumnsDiffer, hk, hadd]
  · rw [Settled.exists_addColumn_iff hk, Settled.ColumnsDiffer, or_assoc]
    by_cases hc : (x.plan mode).Makes k
    · simp [hc]
    · simp [hc]

/-- **Columns that the target does not have are dropped last.** -/
theorem Settled.advances_dropColumns (ht : x.sides.target.Owned) :
    (x.plan mode).Advances .dropColumns .columns (x.ColumnsUpTo mode (x.ColumnsDiffer mode))
      (Reaches (redundantBetween mode x.sides.source x.sides.target) x.sides.source.columns
        x.sides.target.columns) := by
  have hdrop : ∀ w, .dropColumn w ∈ (x.plan mode).statements ↔
      w ∈ x.sides.source.columns.rows ∧ x.sides.target.columns.hasKey (Row.key w) = false ∧
        (x.plan mode).Keeps (Row.key w) := by
    intro w
    rw [PlanInput.mem_dropColumn, ← and_assoc]
    exact and_congr_left fun _ => Collection.mem_dropped_iff
  have hgone : ∀ k, x.sides.target.columns.hasKey k = true →
      ¬∃ w, .dropColumn w ∈ (x.plan mode).statements ∧ Row.key w = k := by
    intro _ hk h
    obtain ⟨w, hw, rfl⟩ := h
    cases ((hdrop w).1 hw).2.1.symm.trans hk
  refine ((x.plan mode).advances_removals Phase.holds_dropColumns Part.dropColumns
    (fun w w' hw hw' => Collection.eq_of_key_eq ((hdrop w).1 hw).1 ((hdrop w').1 hw').1)
    fun rows hm w hw => ?_).imp fun rows hm =>
      hm.reaches (fun k hk hS => ?_) (fun l hl r hr hk hS => ?_) (fun k hk => ?_)
  · obtain ⟨hws, hno, hk⟩ := (hdrop w).1 hw
    refine Collection.Mixed.hasKey_iff hm |>.2 (.inl ⟨Collection.hasKey_key hws, hk, ?_⟩)
    intro hd
    rcases hd with ha | hnew
    · cases hno.symm.trans ha.target
    · cases hnew.symm.trans (Collection.hasKey_key hws)
  · by_contra hno
    obtain ⟨w, hw, rfl⟩ := Collection.hasKey_iff_exists.1 hk
    exact hS.2 ⟨w, (hdrop w).2 ⟨hw, Bool.not_eq_true _ ▸ hno, hS.1.1⟩, rfl⟩
  · exact Collection.effective?_eq_none_of_not_altersAt hl hr hk fun ha => hS.1.2 (.inl ha)
  · by_cases hd : x.ColumnsDiffer mode k
    · exact .inr ⟨.inr hd, hgone k hk⟩
    · have hks : x.sides.source.columns.hasKey k = true := by
        by_contra hno
        exact hd (.inr (Bool.not_eq_true _ ▸ hno))
      obtain ⟨w, hw, rfl⟩ := Collection.hasKey_iff_exists.1 hk
      exact .inl ⟨hks, ⟨Settled.keeps_of_target (ht.columns w hw), hd⟩, hgone _ hk⟩

/-! ## Views -/

/-- Views that change change their definition, or not. -/
def Settled.ViewsAlterBy (x : Settled) (mode : Mode) : Bool → Key → Prop :=
  AltersBy (x.plan mode).alterations.views fun a => (a.change .definition).isSome

/-- Views change. -/
def Settled.ViewsAlter (x : Settled) (mode : Mode) : Key → Prop :=
  AltersAt (fun _ => redundantInView mode) x.sides.source.views x.sides.target.views

theorem Settled.viewsAlter_iff :
    x.ViewsAlterBy mode false k ∨ x.ViewsAlterBy mode true k ↔ x.ViewsAlter mode k :=
  Collection.altersBy_or fun _ => mem_altered_views

theorem Settled.ViewsAlterBy.altersAt {answer : Bool} (h : x.ViewsAlterBy mode answer k) :
    x.ViewsAlter mode k :=
  Collection.AltersBy.altersAt (fun _ => mem_altered_views) h

/-- Views of the source that the target has, as they are where `changed` says that the target has
come. -/
def Settled.ViewsUpTo (x : Settled) (changed : Key → Prop) : Collection View → Prop :=
  Mixed x.sides.source.views x.sides.target.views
    (fun k => x.sides.target.views.hasKey k = true ∧ ¬changed k) changed

theorem Prepared.viewsUpTo (h : Prepared x mode c) : x.ViewsUpTo (fun _ => False) c.views := by
  intro v
  rw [h.views]
  simp

theorem Settled.exists_alterView_iff : (∃ v, .alterView v ∈ (x.plan mode).statements ∧
    Row.key v = k) ↔ x.ViewsAlterBy mode false k := by
  simp only [PlanInput.mem_alterView]
  constructor
  · intro hv
    obtain ⟨_, ⟨a, ha, hq, rfl⟩, rfl⟩ := hv
    exact ⟨a, ha, hq, rfl⟩
  · intro hk
    obtain ⟨a, ha, hq, rfl⟩ := hk
    exact ⟨a.right, ⟨a, ha, hq, rfl⟩, rfl⟩

theorem Settled.advances_alterViews : (x.plan mode).Advances .alterViews .views
    (x.ViewsUpTo fun _ => False) (x.ViewsUpTo (x.ViewsAlterBy mode false)) := by
  refine ((x.plan mode).advances_replacements Phase.holds_alterViews Part.alterViews
    (fun _ _ _ _ e => e) (fun v hv => ?_) (fun k => Settled.exists_alterView_iff)
    fun k hk => ?_).imp fun rows hm => hm.congr (fun k _ => ?_) (fun k _ => ?_)
  · obtain ⟨a, ha, -, hr⟩ := PlanInput.mem_alterView.1 hv
    exact ((Collection.exists_right_iff fun _ => Settled.mem_altered_views).1 ⟨a, ha, hr⟩).1
  · exact .inl ⟨hk.altersAt.source, hk.altersAt.target, not_false⟩
  · simp
  · simp

/-- **A view is replaced if the source has it**, and created otherwise. -/
theorem Settled.replaces_of_createView {v : View} {replaces : Bool}
    (h : .createView v replaces ∈ (x.plan mode).statements) :
    v ∈ x.sides.target.views.rows ∧ x.sides.source.views.hasKey (Row.key v) = replaces := by
  rcases PlanInput.mem_createView.1 h with ⟨rfl, a, ha, -, hr⟩ | ⟨rfl, hv⟩
  · obtain ⟨hv, hk⟩ :=
      (Collection.exists_right_iff fun _ => mem_altered_views).1 ⟨a, ha, hr⟩
    exact ⟨hv, hk.source⟩
  · exact Collection.mem_created_iff.1 hv

theorem Settled.exists_createView_iff (ht : x.sides.target.views.hasKey k = true) :
    (∃ b : View × Bool, .createView b.1 b.2 ∈ (x.plan mode).statements ∧ Row.key b.1 = k) ↔
      x.ViewsAlterBy mode true k ∨ x.sides.source.views.hasKey k = false := by
  constructor
  · intro hb
    obtain ⟨b, hb, rfl⟩ := hb
    rcases PlanInput.mem_createView.1 hb with ⟨-, a, ha, hq, hr⟩ | ⟨-, hv⟩
    · exact .inl ⟨a, ha, hq, congrArg Row.key hr⟩
    · exact .inr (Collection.mem_created_iff.1 hv).2
  · intro hk
    rcases hk with ⟨a, ha, hq, rfl⟩ | hno
    · exact ⟨(a.right, true), PlanInput.mem_createView.2 (.inl ⟨rfl, a, ha, hq, rfl⟩), rfl⟩
    · obtain ⟨w, hw, rfl⟩ := Collection.hasKey_iff_exists.1 ht
      have hnew := Collection.mem_created_iff.2 ⟨hw, hno⟩
      exact ⟨(w, false), PlanInput.mem_createView.2 (.inr ⟨rfl, hnew⟩), rfl⟩

/-- **Views with other definitions are replaced, and new ones created.** -/
theorem Settled.advances_createViews : (x.plan mode).Advances .createViews .views
    (x.ViewsUpTo (x.ViewsAlterBy mode false))
    (Reaches (fun _ => redundantInView mode) x.sides.source.views x.sides.target.views) := by
  refine ((x.plan mode).advances_placements Phase.holds_createViews Part.createViews
    (fun b b' hb hb' e => Prod.ext e ?_) (fun b hb => (Settled.replaces_of_createView hb).1)
    fun rows hm b hb => ?_).imp fun rows hm =>
      hm.reaches (fun k _ hS => hS.1.1) (fun l hl r hr hk hS => ?_) (fun k hk => ?_)
  · rw [← (Settled.replaces_of_createView hb).2, ← (Settled.replaces_of_createView hb').2,
      show b.1 = b'.1 from e]
  · obtain ⟨hw, hs⟩ := Settled.replaces_of_createView hb
    have ht := Collection.hasKey_key hw
    cases hrep : b.2 with
    | false =>
      rw [hrep] at hs
      refine Collection.Mixed.hasKey_eq_false_iff hm |>.2 ⟨fun hyes => ?_, fun _ hq => ?_⟩
      · cases hs.symm.trans hyes
      · cases hs.symm.trans hq.altersAt.source
    | true =>
      rw [hrep] at hs
      by_cases hq : x.ViewsAlterBy mode false (Row.key b.1)
      · exact Collection.Mixed.hasKey_iff hm |>.2 (.inr ⟨ht, hq⟩)
      · exact Collection.Mixed.hasKey_iff hm |>.2 (.inl ⟨hs, ht, hq⟩)
  · refine Collection.effective?_eq_none_of_not_altersAt hl hr hk fun ha => ?_
    rcases Settled.viewsAlter_iff.2 ha with hq | hq
    · exact hS.1.2 hq
    · exact hS.2 ((Settled.exists_createView_iff ha.target).2 (.inl hq))
  · rw [Settled.exists_createView_iff hk]
    by_cases hq : x.ViewsAlterBy mode false k
    · exact .inr (.inl hq)
    by_cases hc : x.ViewsAlterBy mode true k ∨ x.sides.source.views.hasKey k = false
    · exact .inr (.inr hc)
    · have hs : x.sides.source.views.hasKey k = true := by simpa using (not_or.1 hc).2
      exact .inl ⟨hs, ⟨hk, hq⟩, hc⟩

end

end SchemaEvolution
