import SchemaEvolution.Proofs.Difference
import SchemaEvolution.Proofs.Replay.Batch
import SchemaEvolution.Proofs.Replay.Phases

/-!
# Collections on the way

While a migration is carried out, a collection has rows of the source under some keys and rows of
the target under other ones (`Collection.Mixed`). Statements that drop rows give up keys of both
sorts, and statements that create or alter rows turn keys of the first sort into keys of the second
sort. So what a migration does to one kind of rows is a matter of keys alone.

**In the end** (`Collection.Reaches`) there is a row under exactly the keys of the target. It is the
row of the target, or one of the source from which no delta to it counts.
-/

namespace SchemaEvolution

namespace Collection

section Mixed

variable {α : Type} [Row α] {source target c d : Collection α} {S P S' P' : Key → Prop} {k : Key}

/-- The rows of `source` under keys in `S`, and the rows of `target` under keys in `P`. -/
def Mixed (source target : Collection α) (S P : Key → Prop) (c : Collection α) : Prop :=
  ∀ y, y ∈ c.rows ↔ y ∈ source.rows ∧ S (Row.key y) ∨ y ∈ target.rows ∧ P (Row.key y)

namespace Mixed

theorem hasKey_iff (h : Mixed source target S P c) :
    c.hasKey k = true ↔ source.hasKey k = true ∧ S k ∨ target.hasKey k = true ∧ P k := by
  rw [hasKey_iff_exists, hasKey_iff_exists, hasKey_iff_exists]
  constructor
  · intro h'
    obtain ⟨y, hy, rfl⟩ := h'
    rcases (h y).1 hy with ⟨hs, hS⟩ | ⟨ht, hP⟩
    · exact .inl ⟨⟨y, hs, rfl⟩, hS⟩
    · exact .inr ⟨⟨y, ht, rfl⟩, hP⟩
  · intro h'
    rcases h' with ⟨⟨y, hy, rfl⟩, hS⟩ | ⟨⟨y, hy, rfl⟩, hP⟩
    · exact ⟨y, (h y).2 (.inl ⟨hy, hS⟩), rfl⟩
    · exact ⟨y, (h y).2 (.inr ⟨hy, hP⟩), rfl⟩

theorem hasKey_eq_false_iff (h : Mixed source target S P c) :
    c.hasKey k = false ↔
      (source.hasKey k = true → ¬S k) ∧ (target.hasKey k = true → ¬P k) := by
  rw [← Bool.not_eq_true, h.hasKey_iff]
  tauto

theorem of_removed {G : Key → Prop} (h : Mixed source target S P c)
    (hd : ∀ y, y ∈ d.rows ↔ y ∈ c.rows ∧ ¬G (Row.key y)) :
    Mixed source target (fun k => S k ∧ ¬G k) (fun k => P k ∧ ¬G k) d := by
  intro y
  rw [hd, h y]
  tauto

theorem of_placed {β : Type} {put : β → Prop} {row : β → α} (h : Mixed source target S P c)
    (hput : ∀ b, put b → row b ∈ target.rows)
    (hd : ∀ y, y ∈ d.rows ↔
      (y ∈ c.rows ∧ ¬∃ b, put b ∧ Row.key (row b) = Row.key y) ∨ ∃ b, put b ∧ row b = y) :
    Mixed source target (fun k => S k ∧ ¬∃ b, put b ∧ Row.key (row b) = k)
      (fun k => P k ∨ ∃ b, put b ∧ Row.key (row b) = k) d := by
  intro y
  rw [hd, h y]
  constructor
  · intro h'
    rcases h' with ⟨⟨hs, hS⟩ | ⟨ht, hP⟩, hno⟩ | ⟨b, hb, rfl⟩
    · exact .inl ⟨hs, hS, hno⟩
    · exact .inr ⟨ht, .inl hP⟩
    · exact .inr ⟨hput b hb, .inr ⟨b, hb, rfl⟩⟩
  · intro h'
    rcases h' with ⟨hs, hS, hno⟩ | ⟨ht, hP⟩
    · exact .inl ⟨.inl ⟨hs, hS⟩, hno⟩
    · by_cases hw : ∃ b, put b ∧ Row.key (row b) = Row.key y
      · obtain ⟨b, hb, e⟩ := hw
        exact .inr ⟨b, hb, eq_of_key_eq (hput b hb) ht e⟩
      · exact .inl ⟨.inr ⟨ht, hP.resolve_right hw⟩, hw⟩

/-- Only keys that the two sides have matter. -/
theorem congr (h : Mixed source target S P c)
    (hS : ∀ k, source.hasKey k = true → (S k ↔ S' k))
    (hP : ∀ k, target.hasKey k = true → (P k ↔ P' k)) : Mixed source target S' P' c := by
  intro y
  rw [h y]
  refine or_congr (and_congr_right fun hy => ?_) (and_congr_right fun hy => ?_)
  · exact hS _ (hasKey_iff_exists.2 ⟨y, hy, rfl⟩)
  · exact hP _ (hasKey_iff_exists.2 ⟨y, hy, rfl⟩)

end Mixed

end Mixed

section Reaches

variable {α φ : Type} {ν : φ → Type} [Row α] [Attributed α φ ν] {R : Redundancy α ν}
  {source target c : Collection α} {S P : Key → Prop}

/-- A migration from `source` to `target` has come to `c`. -/
structure Reaches (R : Redundancy α ν) (source target c : Collection α) : Prop where
  keys : ∀ k, c.hasKey k = target.hasKey k
  rows : ∀ y ∈ c.rows, ∀ w ∈ target.rows, Row.key y = Row.key w →
    y = w ∨ y ∈ source.rows ∧ Alteration.effective? R y w = none

/-- **A mixed collection has reached the target** if the rows of the source that it still has need
no alteration, and no key of the target is missing. -/
theorem Mixed.reaches (h : Mixed source target S P c)
    (hkept : ∀ k, source.hasKey k = true → S k → target.hasKey k = true)
    (hsame : ∀ l ∈ source.rows, ∀ r ∈ target.rows, Row.key l = Row.key r → S (Row.key l) →
      Alteration.effective? R l r = none)
    (hall : ∀ k, target.hasKey k = true → source.hasKey k = true ∧ S k ∨ P k) :
    Reaches R source target c where
  keys k := by
    rw [Bool.eq_iff_iff, h.hasKey_iff]
    constructor
    · intro h'
      rcases h' with ⟨hs, hS⟩ | ⟨ht, -⟩
      · exact hkept k hs hS
      · exact ht
    · intro ht
      rcases hall k ht with hS | hP
      · exact .inl hS
      · exact .inr ⟨ht, hP⟩
  rows y hy w hw e := by
    rcases (h y).1 hy with ⟨hs, hS⟩ | ⟨ht, -⟩
    · exact .inr ⟨hs, hsame y hs w hw e hS⟩
    · exact .inl (eq_of_key_eq ht hw e)

end Reaches

end Collection

/-! ## Phases -/

namespace PlanInput

open Collection (Mixed)

variable {α β : Type} [Row α] {part : Part α} {mk : β → Statement} {ph : Phase} {p : PlanInput}
  {source target : Collection α} {S P : Key → Prop}

/-- Carrying out a phase succeeds on any catalog in which one collection is as required. It changes
that collection only, and afterwards the collection is as promised. -/
def Advances (p : PlanInput) (ph : Phase) (part : Part α) (before after : Collection α → Prop) :
    Prop :=
  ∀ c : Catalog, before (part.get c) →
    ∃ rows, c.replay? (p.phase ph) = some (part.set rows c) ∧ after rows

/-- **A phase that drops rows of one kind.** -/
theorem advances_removals {key : β → Key} (hph : ph.Holds mk) (hp : part.Removes mk key)
    (hinj : ∀ b b', mk b ∈ p.statements → mk b' ∈ p.statements → key b = key b' → b = b')
    (hthere : ∀ rows, Mixed source target S P rows →
      ∀ b, mk b ∈ p.statements → rows.hasKey (key b) = true) :
    p.Advances ph part (Mixed source target S P)
      (Mixed source target (fun k => S k ∧ ¬∃ b, mk b ∈ p.statements ∧ key b = k)
        (fun k => P k ∧ ¬∃ b, mk b ∈ p.statements ∧ key b = k)) := by
  intro c hm
  obtain ⟨bs, hbs, hn, hmem⟩ := exists_phase_eq hph p
  obtain ⟨rows, hr, hrm⟩ := Catalog.replay?_removals hp (c := c)
    (hn.map_on fun b hb b' hb' => hinj b b' ((hmem b).1 hb) ((hmem b').1 hb'))
    (fun b hb => hthere _ hm b ((hmem b).1 hb))
  refine ⟨rows, hbs ▸ hr, hm.of_removed fun y => (hrm y).trans (and_congr_right fun _ => ?_)⟩
  constructor
  · intro hno h
    obtain ⟨b, hb, e⟩ := h
    exact hno b ((hmem b).2 hb) e.symm
  · intro hno b hb e
    exact hno ⟨b, (hmem b).1 hb, e.symm⟩

/-- **A phase that puts rows of one kind in place.** -/
theorem advances_placements {row : β → α} {replaces : β → Bool} (hph : ph.Holds mk)
    (hp : part.Places mk row replaces)
    (hinj : ∀ b b', mk b ∈ p.statements → mk b' ∈ p.statements → row b = row b' → b = b')
    (htarget : ∀ b, mk b ∈ p.statements → row b ∈ target.rows)
    (hthere : ∀ rows, Mixed source target S P rows →
      ∀ b, mk b ∈ p.statements → rows.hasKey (Row.key (row b)) = replaces b) :
    p.Advances ph part (Mixed source target S P)
      (Mixed source target (fun k => S k ∧ ¬∃ b, mk b ∈ p.statements ∧ Row.key (row b) = k)
        (fun k => P k ∨ ∃ b, mk b ∈ p.statements ∧ Row.key (row b) = k)) := by
  intro c hm
  obtain ⟨bs, hbs, hn, hmem⟩ := exists_phase_eq hph p
  have hkeys : (bs.map fun b => Row.key (row b)).Nodup := by
    refine hn.map_on fun b hb b' hb' e => hinj b b' ((hmem b).1 hb) ((hmem b').1 hb') ?_
    exact Collection.eq_of_key_eq (htarget b ((hmem b).1 hb)) (htarget b' ((hmem b').1 hb')) e
  obtain ⟨rows, hr, hrm⟩ := Catalog.replay?_placements hp (c := c) hkeys
    (fun b hb => hthere _ hm b ((hmem b).1 hb))
  refine ⟨rows, hbs ▸ hr, hm.of_placed htarget fun y => (hrm y).trans (or_congr ?_ ?_)⟩
  · refine and_congr_right fun _ => ⟨?_, ?_⟩
    · intro hno h
      obtain ⟨b, hb, e⟩ := h
      exact hno b ((hmem b).2 hb) e.symm
    · intro hno b hb e
      exact hno ⟨b, (hmem b).1 hb, e.symm⟩
  · exact exists_congr fun b => and_congr_left fun _ => hmem b

theorem Advances.imp {before after after' : Collection α → Prop}
    (h : p.Advances ph part before after) (himp : ∀ rows, after rows → after' rows) :
    p.Advances ph part before after' := by
  intro c hc
  obtain ⟨rows, hr, hrows⟩ := h c hc
  exact ⟨rows, hr, himp rows hrows⟩

/-- **A phase that replaces rows** at the keys in `U`. -/
theorem advances_replacements {row : β → α} {U : Key → Prop} (hph : ph.Holds mk)
    (hp : part.Places mk row fun _ => true)
    (hinj : ∀ b b', mk b ∈ p.statements → mk b' ∈ p.statements → row b = row b' → b = b')
    (htarget : ∀ b, mk b ∈ p.statements → row b ∈ target.rows)
    (hkeys : ∀ k, (∃ b, mk b ∈ p.statements ∧ Row.key (row b) = k) ↔ U k)
    (hthere : ∀ k, U k → source.hasKey k = true ∧ S k ∨ target.hasKey k = true ∧ P k) :
    p.Advances ph part (Mixed source target S P)
      (Mixed source target (fun k => S k ∧ ¬U k) (fun k => P k ∨ U k)) := by
  have hput : ∀ rows, Mixed source target S P rows →
      ∀ b, mk b ∈ p.statements → rows.hasKey (Row.key (row b)) = true := by
    intro rows hm b hb
    exact hm.hasKey_iff.2 (hthere _ ((hkeys _).1 ⟨b, hb, rfl⟩))
  have h := p.advances_placements hph hp hinj htarget hput
  simpa only [hkeys] using h

end PlanInput

end SchemaEvolution
