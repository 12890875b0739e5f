import SchemaEvolution.Proofs.Planning
import SchemaEvolution.Proofs.Replay.Mixed

/-!
# Rows that are dropped and created again

Primary keys, foreign keys, indexes and checks that change are dropped, and the rows of the target
are created in their place. For such a kind of rows, the course of a migration
(`Collection.Course`) is given by three sets of keys: where rows of the source are kept as far as
dropped tables go, where rows have come with created tables, and where rows change.

**Dropping** (`Collection.Course.advances_drops`) leaves the rows of the source that the target has
and that do not change. **Creating** (`Collection.Course.advances_creates`) puts all other rows of
the target in place, so afterwards the target is reached.
-/

namespace SchemaEvolution

namespace Collection

variable {α φ : Type} {ν : φ → Type} [Row α] [Attributed α φ ν] {R : Redundancy α ν}
  {source target : Collection α} {k : Key}

/-- Where a migration keeps rows of the source, where rows of the target come early, and where rows
change. -/
structure Course (R : Redundancy α ν) (source target : Collection α) where
  Kept : Key → Prop
  Early : Key → Prop
  Changed : Key → Prop
  kept : ∀ k, target.hasKey k = true → Kept k
  early : ∀ k, Early k → source.hasKey k = false
  changed : ∀ k, Changed k → source.hasKey k = true
  altered : ∀ k, AltersAt R source target k → Changed k

namespace Course

/-- The rows before any of them are dropped. -/
def Start (h : Course R source target) : Collection α → Prop :=
  Mixed source target h.Kept h.Early

/-- The rows between dropping and creating. -/
def Reduced (h : Course R source target) : Collection α → Prop :=
  Mixed source target (fun k => target.hasKey k = true ∧ ¬h.Changed k) h.Early

end Course

/-- The keys of rows that are dropped by themselves, if rows are dropped where the target has none
or where they are altered. -/
theorem exists_dropped_iff {alts : List (Alteration α ν)}
    (h : ∀ a, a ∈ alts ↔ ∃ l ∈ source.rows, ∃ r ∈ target.rows, Row.key l = Row.key r ∧
      Alteration.effective? R l r = some a)
    {S : Key → Prop} (hS : ∀ k, target.hasKey k = true → S k) :
    (∃ y, ((y ∈ (source.difference target (ν := ν)).dropped ∧ S (Row.key y)) ∨
        ∃ a ∈ alts, a.left = y) ∧ Row.key y = k) ↔
      source.hasKey k = true ∧ S k ∧
        (target.hasKey k = false ∨ AltersAt R source target k) := by
  simp only [mem_dropped_iff, exists_left_iff h]
  constructor
  · intro h'
    rcases h' with ⟨y, ⟨⟨hy, hno⟩, hSy⟩ | ⟨hy, ha⟩, rfl⟩
    · exact ⟨hasKey_key hy, hSy, .inl hno⟩
    · exact ⟨hasKey_key hy, hS _ ha.target, .inr ha⟩
  · intro h'
    obtain ⟨hk, hSk, hc⟩ := h'
    obtain ⟨y, hy, rfl⟩ := hasKey_iff_exists.1 hk
    refine ⟨y, ?_, rfl⟩
    rcases hc with hno | ha
    · exact .inl ⟨⟨hy, hno⟩, hSk⟩
    · exact .inr ⟨hy, ha⟩

/-- The rows that are created by themselves, if rows are created where the source has none, unless
they come early, and where they are altered. -/
theorem created_iff {alts : List (Alteration α ν)}
    (h : ∀ a, a ∈ alts ↔ ∃ l ∈ source.rows, ∃ r ∈ target.rows, Row.key l = Row.key r ∧
      Alteration.effective? R l r = some a) {early : Prop} {w : α} :
    (w ∈ (source.difference target (ν := ν)).created ∧ ¬early ∨ ∃ a ∈ alts, a.right = w) ↔
      w ∈ target.rows ∧
        (source.hasKey (Row.key w) = false ∧ ¬early ∨ AltersAt R source target (Row.key w)) := by
  rw [mem_created_iff, exists_right_iff h, and_or_left, and_assoc]

end Collection

namespace Collection.Course

variable {α φ β : Type} {ν : φ → Type} [Row α] [Attributed α φ ν] {R : Redundancy α ν}
  {source target : Collection α} {part : Part α} {ph : Phase} {p : PlanInput}

/-- **Dropping** leaves what the target has and what does not change. -/
theorem advances_drops {mk : β → Statement} {key : β → Key} (h : Course R source target)
    (hph : ph.Holds mk) (hp : part.Removes mk key)
    (hinj : ∀ b b', mk b ∈ p.statements → mk b' ∈ p.statements → key b = key b' → b = b')
    (hdrop : ∀ k, (∃ b, mk b ∈ p.statements ∧ key b = k) ↔
      source.hasKey k = true ∧ h.Kept k ∧ (target.hasKey k = false ∨ h.Changed k)) :
    p.Advances ph part h.Start h.Reduced := by
  refine (p.advances_removals hph hp hinj fun rows hm b hb => ?_).imp fun rows hm =>
    hm.congr (fun k hs => ?_) (fun k _ => ?_)
  · obtain ⟨hs, hk, -⟩ := (hdrop _).1 ⟨b, hb, rfl⟩
    exact hm.hasKey_iff.2 (.inl ⟨hs, hk⟩)
  · rw [hdrop]
    constructor
    · intro h'
      obtain ⟨hk, hno⟩ := h'
      by_cases ht : target.hasKey k = true
      · exact ⟨ht, fun hc => hno ⟨hs, hk, .inr hc⟩⟩
      · exact absurd ⟨hs, hk, .inl (Bool.not_eq_true _ ▸ ht)⟩ hno
    · intro h'
      obtain ⟨ht, hsame⟩ := h'
      refine ⟨h.kept k ht, ?_⟩
      intro h'
      rcases h' with ⟨-, -, hno | hc⟩
      · cases hno.symm.trans ht
      · exact hsame hc
  · rw [hdrop]
    refine and_iff_left_of_imp fun he => ?_
    intro h'
    obtain ⟨hs, -⟩ := h'
    cases (h.early k he).symm.trans hs

/-- **Creating** what is missing reaches the target. -/
theorem advances_creates {mk : α → Statement} (h : Course R source target) (hph : ph.Holds mk)
    (hp : part.Places mk id fun _ => false)
    (hcreate : ∀ w, mk w ∈ p.statements ↔ w ∈ target.rows ∧
      (source.hasKey (Row.key w) = false ∧ ¬h.Early (Row.key w) ∨ h.Changed (Row.key w))) :
    p.Advances ph part h.Reduced (Reaches R source target) := by
  refine (p.advances_placements hph hp (fun _ _ _ _ e => e) (fun w hw => ((hcreate w).1 hw).1)
    fun rows hm w hw => ?_).imp fun rows hm => hm.reaches (fun k _ hS => hS.1.1) ?_ ?_
  · refine hm.hasKey_eq_false_iff.2 ?_
    rcases ((hcreate w).1 hw).2 with ⟨hs, he⟩ | hc
    · exact ⟨fun hs' _ => Bool.false_ne_true (hs.symm.trans hs'), fun _ => he⟩
    · refine ⟨fun _ hno => hno.2 hc, fun _ he => ?_⟩
      exact Bool.false_ne_true ((h.early _ he).symm.trans (h.changed _ hc))
  · intro l hl r hr hk hS
    exact effective?_eq_none_of_not_altersAt hl hr hk fun ha => hS.1.2 (h.altered _ ha)
  · intro k ht
    obtain ⟨w, hw, rfl⟩ := hasKey_iff_exists.1 ht
    by_cases hput : mk w ∈ p.statements
    · exact .inr (.inr ⟨w, hput, rfl⟩)
    · have hno := mt (fun hc => (hcreate w).2 ⟨hw, hc⟩) hput
      rw [not_or, not_and_not_right] at hno
      by_cases he : h.Early (Row.key w)
      · exact .inr (.inl he)
      · have hs : source.hasKey (Row.key w) = true := by
          by_contra hs
          exact he (hno.1 (Bool.not_eq_true _ ▸ hs))
        refine .inl ⟨hs, ⟨ht, hno.2⟩, ?_⟩
        intro h'
        obtain ⟨w', hw', e⟩ := h'
        obtain rfl : w' = w := eq_of_key_eq ((hcreate w').1 hw').1 hw e
        exact hput hw'

end Collection.Course

end SchemaEvolution
