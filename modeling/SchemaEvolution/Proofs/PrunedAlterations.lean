import SchemaEvolution.Proofs.Leniency
import SchemaEvolution.Proofs.Patches

/-!
# What pruning leaves

A rule looks at one delta of an alteration, and besides at the right row, the primary keys of both
catalogs and the mode. None of these changes when deltas are removed. So rules do not get in each
other's way, whichever deltas of one row they remove.

**Pruning only removes** (`Alteration.pruned`): what is left are alterations of the same rows in
the same order, with those of their deltas that no rule removes. An alteration is gone exactly if
every one of its deltas is removed.

**Pruning again changes nothing** (`Alteration.prune_prune`): a delta that is left was not removed
by its rule the first time.

Main result: `Alterations.prune_only_removes`, for the alterations of all kinds between any two
catalogs in both modes.
-/

namespace SchemaEvolution

namespace Alteration

variable {α φ : Type} {ν : φ → Type}

/-- Rules that go by the right row. -/
abbrev Rules (α : Type) {φ : Type} (ν : φ → Type) : Type :=
  α → (f : φ) → Delta (ν f) → Bool

/-- The alterations `after` are what rules have left of the alterations `before`. -/
structure Pruned (rules : Rules α ν) (before after : List (Alteration α ν)) : Prop where
  /-- Alterations of the same rows in the same order, with at most their deltas. -/
  inOrder : after.SublistForall₂ Remains before
  nonempty : ∀ b ∈ after, ∃ f d, b.change f = some d
  /-- Deltas are left if their rules do not remove them. -/
  deltas : ∀ a ∈ before, ∀ b ∈ after, b.left = a.left → b.right = a.right →
    ∀ f d, b.change f = some d ↔ a.change f = some d ∧ rules a.right f d = false
  /-- Alterations are gone if all of their deltas are removed. -/
  gone : ∀ a ∈ before, (¬∃ b ∈ after, b.left = a.left ∧ b.right = a.right) ↔
    ∀ f d, a.change f = some d → rules a.right f d = true

variable [Attributed α φ ν] {rules : Rules α ν} {as : List (Alteration α ν)}
  {a b : Alteration α ν}

theorem remains_of_prune {redundant : (f : φ) → Delta (ν f) → Bool}
    (h : a.prune redundant = some b) : b.Remains a := by
  rw [prune_change h]
  exact ⟨rfl, rfl, fun f d hd => (Option.filter_eq_some_iff.1 hd).1⟩

theorem change_of_prune {redundant : (f : φ) → Delta (ν f) → Bool}
    (h : a.prune redundant = some b) (f : φ) (d : Delta (ν f)) :
    b.change f = some d ↔ a.change f = some d ∧ redundant f d = false := by
  rw [prune_change h, Option.filter_eq_some_iff, Bool.not_eq_true']

/-- **Pruning again changes nothing.** -/
theorem prune_prune {redundant : (f : φ) → Delta (ν f) → Bool}
    (h : a.prune redundant = some b) : b.prune redundant = some b := by
  have hchange : (fun f => (b.change f).filter fun d => !redundant f d) = b.change := by
    funext f
    cases hd : b.change f with
    | none => rfl
    | some d => simp [Option.filter, ((change_of_prune h f d).1 hd).2]
  have hb : b.prune redundant = b.nonempty? := by rw [prune, hchange]
  rw [hb]
  cases hn : b.nonempty? with
  | some c => rw [eq_of_nonempty? hn]
  | none =>
    -- Something is left of `a`, but nothing in it.
    have hnone : a.prune redundant = none := prune_eq_none_iff.2 fun f d hd => by
      by_contra hr
      have hd' := (change_of_prune h f d).2 ⟨hd, Bool.eq_false_iff.2 hr⟩
      rw [nonempty?_eq_none_iff.1 hn f] at hd'
      cases hd'
    rw [hnone] at h
    cases h

theorem exists_change_of_prune {redundant : (f : φ) → Delta (ν f) → Bool}
    (h : a.prune redundant = some b) : ∃ f d, b.change f = some d := by
  by_contra hno
  push Not at hno
  have hnone : b.prune redundant = none :=
    prune_eq_none_iff.2 fun f d hd => absurd hd (hno f d)
  rw [prune_prune h] at hnone
  cases hnone

theorem sublistForall₂_filterMap_prune (rules : Rules α ν) (as : List (Alteration α ν)) :
    (as.filterMap fun a => a.prune (rules a.right)).SublistForall₂ Remains as := by
  induction as with
  | nil => exact .nil
  | cons a as ih =>
    rw [List.filterMap_cons]
    cases ha : a.prune (rules a.right) with
    | none => exact .cons_right ih
    | some b => exact .cons (remains_of_prune ha) ih

/-- **Pruning only removes** deltas and alterations, provided that no two alterations lead to one
row. -/
theorem pruned (rules : Rules α ν) (h : (as.map (·.right)).Nodup) :
    Pruned rules as (as.filterMap fun a => a.prune (rules a.right)) where
  inOrder := sublistForall₂_filterMap_prune rules as
  nonempty b hb := by
    obtain ⟨a, -, hab⟩ := List.mem_filterMap.1 hb
    exact exists_change_of_prune hab
  deltas a ha b hb _ hright := by
    obtain ⟨a', ha', hab⟩ := List.mem_filterMap.1 hb
    have e := (remains_of_prune hab).right.symm.trans hright
    obtain rfl := List.inj_on_of_nodup_map h ha' ha e
    exact change_of_prune hab
  gone a ha := by
    rw [← prune_eq_none_iff, Option.eq_none_iff_forall_ne_some]
    constructor
    · intro hno b hab
      have hr := remains_of_prune hab
      exact hno ⟨b, List.mem_filterMap.2 ⟨a, ha, hab⟩, hr.left, hr.right⟩
    · rintro hnone ⟨b, hb, -, hright⟩
      obtain ⟨a', ha', hab⟩ := List.mem_filterMap.1 hb
      have e := (remains_of_prune hab).right.symm.trans hright
      obtain rfl := List.inj_on_of_nodup_map h ha' ha e
      exact hnone b hab

theorem filterMap_prune_again (rules : Rules α ν) (as : List (Alteration α ν)) :
    (as.filterMap fun a => a.prune (rules a.right)).filterMap (fun a => a.prune (rules a.right)) =
      as.filterMap fun a => a.prune (rules a.right) := by
  have h : ∀ b ∈ as.filterMap fun a => a.prune (rules a.right),
      b.prune (rules b.right) = some b := by
    intro b hb
    obtain ⟨a, -, hab⟩ := List.mem_filterMap.1 hb
    rw [(remains_of_prune hab).right]
    exact prune_prune hab
  exact (List.filterMap_congr h).trans List.filterMap_some

end Alteration

/-! ## Alterations of all kinds -/

/-- The rules for columns between two catalogs. -/
def Comparison.columnRules (mode : Mode) (source target : Catalog) :
    Alteration.Rules Column Column.Attribute.Value :=
  fun w => redundantInColumn mode (inPrimaryKey source w || inPrimaryKey target w) w.type

namespace Alterations

open Alteration Comparison

/-- The alterations `after` are what the rules of every kind have left of the alterations `before`
between two catalogs. -/
structure Pruned (mode : Mode) (source target : Catalog) (before after : Alterations) : Prop where
  columns : Alteration.Pruned (columnRules mode source target) before.columns after.columns
  primaryKeys : Alteration.Pruned (fun _ => redundantInPrimaryKey) before.primaryKeys
    after.primaryKeys
  foreignKeys : Alteration.Pruned (fun _ => redundantInForeignKey mode) before.foreignKeys
    after.foreignKeys
  indexes : Alteration.Pruned (fun _ => redundantInIndex mode) before.indexes after.indexes
  checks : Alteration.Pruned (fun _ => redundantInCheck mode) before.checks after.checks
  views : Alteration.Pruned (fun _ => redundantInView mode) before.views after.views
  viewColumns : Alteration.Pruned (fun _ => redundantInViewColumn mode) before.viewColumns
    after.viewColumns

theorem pruned (mode : Mode) (source target : Catalog) :
    Pruned mode source target (source.difference target).alterations
      ((source.difference target).alterations.prune mode source target) where
  columns := Alteration.pruned (columnRules mode source target) (Collection.nodup_right_altered ..)
  primaryKeys := Alteration.pruned (fun _ => redundantInPrimaryKey)
    (Collection.nodup_right_altered ..)
  foreignKeys := Alteration.pruned (fun _ => redundantInForeignKey mode)
    (Collection.nodup_right_altered ..)
  indexes := Alteration.pruned (fun _ => redundantInIndex mode) (Collection.nodup_right_altered ..)
  checks := Alteration.pruned (fun _ => redundantInCheck mode) (Collection.nodup_right_altered ..)
  views := Alteration.pruned (fun _ => redundantInView mode) (Collection.nodup_right_altered ..)
  viewColumns := Alteration.pruned (fun _ => redundantInViewColumn mode)
    (Collection.nodup_right_altered ..)

/-- Pruned alterations have nothing left to prune, whatever they are made from. -/
theorem prune_prune (mode : Mode) (source target : Catalog) (a : Alterations) :
    (a.prune mode source target).prune mode source target = a.prune mode source target := by
  have hcolumns := filterMap_prune_again (columnRules mode source target) a.columns
  have hprimaryKeys := filterMap_prune_again (fun _ => redundantInPrimaryKey) a.primaryKeys
  have hforeignKeys := filterMap_prune_again (fun _ => redundantInForeignKey mode) a.foreignKeys
  have hindexes := filterMap_prune_again (fun _ => redundantInIndex mode) a.indexes
  have hchecks := filterMap_prune_again (fun _ => redundantInCheck mode) a.checks
  have hviews := filterMap_prune_again (fun _ => redundantInView mode) a.views
  have hviewColumns := filterMap_prune_again (fun _ => redundantInViewColumn mode) a.viewColumns
  exact Alterations.mk.injEq .. ▸
    ⟨hcolumns, hprimaryKeys, hforeignKeys, hindexes, hchecks, hviews, hviewColumns⟩

/-- **Pruning only removes what makes no difference**, and pruning again changes nothing. -/
theorem prune_only_removes (mode : Mode) (source target : Catalog) :
    Pruned mode source target (source.difference target).alterations
      ((source.difference target).alterations.prune mode source target) ∧
    ((source.difference target).alterations.prune mode source target).prune mode source target =
      (source.difference target).alterations.prune mode source target :=
  ⟨pruned mode source target, prune_prune mode source target _⟩

end Alterations

end SchemaEvolution
