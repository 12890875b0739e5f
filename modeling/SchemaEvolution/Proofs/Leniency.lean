import Mathlib.Data.List.Forall2
import SchemaEvolution.Comparison.Prune
import SchemaEvolution.Proofs.ColumnTypes
import SchemaEvolution.Proofs.Difference

/-!
# Leniency

Against a live database more texts mean the same than against a declared schema. Each rule of the
mode `push` starts from what the mode `default` compares, so it can only hide more.

**For types that takes an argument** (`Comparison.sameType_push`). Parts of a type that are written
alike need not be alike, and the mode `push` looks at the parts once more: it drops the width of a
whole number and replaces a serial number. But the text of such a type tells its parts
(`Comparison.eq_of_render_eq`), so types that are written alike are still written alike afterwards.

**Theorem (`Comparison.push_hides_more`).** Whatever is left of alterations in the mode `push` is
left of them in the mode `default`, each delta included; and what is the same in the mode `default`
is the same in the mode `push`.
-/

namespace SchemaEvolution

open Text Sql

namespace Comparison

/-! ## Types with their synonyms spelled out -/

/-- Base names of the types that lose something in the mode `push`. -/
def numberBases : List String :=
  "serial" :: integerBases

/-- Base names of the types that lose the precision zero. -/
def clockBases : List String :=
  ["timestamp", "datetime", "time"]

/-- The shapes of a type with its synonyms spelled out. A clock that lost its precision can have
anything behind its base name. -/
inductive SpelledOut (t : ColumnType) : Prop
  | listed (a : String) (hargs : t.args = some a) (hopen : '(' ∉ t.base.toList)
      (hclose : ')' ∉ a.toList)
  | bare (hargs : t.args = none) (hopen : '(' ∉ t.base.toList) (hrest : '(' ∉ t.modifiers.toList)
      (hword : ' ' ∉ t.base.toList ∨ t.base ∈ ColumnType.twoWordBases)
  | clock (hargs : t.args = none) (hbase : t.base ∈ clockBases)

theorem mem_of_mem_trim {c : Char} {cs : List Char} (h : c ∈ trim cs) : c ∈ cs := by
  have hend := List.mem_reverse.1 ((List.dropWhile_suffix isBlank).subset (List.mem_reverse.1 h))
  exact (List.dropWhile_suffix isBlank).subset hend

theorem spelledOut_of_parts {text : List Char} {t : ColumnType} (h : ColumnType.Parts text t) :
    SpelledOut t := by
  cases h with
  | listed hopen hclose | unclosed hopen hclose =>
    refine .listed _ rfl ?_ ?_
    · rw [String.toList_ofList]
      exact fun hm => hopen (mem_of_mem_trim hm)
    · rw [String.toList_ofList]
      exact fun hm => hclose (List.mem_of_mem_filter hm)
  | bare hopen hsplit =>
    rcases ColumnType.splitBase_cases text with
      ⟨b, hb, hs, e⟩ | ⟨b, hb, rest, hs, e⟩ | ⟨hs, hword⟩ | ⟨base, rest, hs, e, hword⟩
    all_goals obtain ⟨rfl, rfl⟩ := Prod.mk.inj (hsplit.symm.trans hs)
    · rw [e] at hopen
      exact .bare rfl (by simpa using hopen) (by simp) (.inr (by simpa using hb))
    · rw [e] at hopen
      simp only [List.mem_append, List.mem_cons, not_or] at hopen
      refine .bare rfl (by simpa using hopen.1) ?_ (.inr (by simpa using hb))
      rw [String.toList_ofList]
      exact fun hm => hopen.2.2 (mem_of_mem_trim hm)
    · exact .bare rfl (by simpa using hopen) (by simp) (.inl (by simpa using hword))
    · rw [e] at hopen
      simp only [List.mem_append, List.mem_cons, not_or] at hopen
      exact .bare rfl (by simpa using hopen.1) (by simpa using hopen.2.2)
        (.inl (by simpa using hword))

theorem SpelledOut.withBase {t : ColumnType} (h : SpelledOut t) {base : String}
    (hclock : t.base ∉ clockBases) (hopen : '(' ∉ base.toList) (hword : ' ' ∉ base.toList) :
    SpelledOut { t with base } := by
  cases h with
  | listed a hargs _ hclose => exact .listed a hargs hopen hclose
  | bare hargs _ hrest _ => exact .bare hargs hopen hrest (.inl hword)
  | clock _ hbase => exact absurd hbase hclock

theorem SpelledOut.spellOut {t : ColumnType} (h : SpelledOut t) : SpelledOut (spellOut t) := by
  unfold Comparison.spellOut
  split
  next => exact .listed "1" rfl (by simp) (by simp)
  split
  next hb =>
    refine .listed "1" rfl ?_ (by simp)
    have : ∀ b ∈ ["binary", "char"], '(' ∉ b.toList := by simp
    exact this _ hb.1
  split
  next hb => exact h.withBase (by rw [hb]; decide) (by decide) (by decide)
  split
  next =>
    refine .listed _ rfl (by simp) ?_
    cases h with
    | listed a hargs _ hclose =>
      rw [hargs]
      dsimp only
      split
      · exact hclose
      · simpa using hclose
    | bare hargs | clock hargs =>
      rw [hargs]
      simp
  split
  next hb =>
    have : ∀ b ∈ ["double precision", "real"], b ∉ clockBases := by decide
    exact h.withBase (this _ hb) (by simp) (by simp)
  split
  next hb => exact .clock rfl hb.1
  next => exact h

theorem spelledOut_spellOut (raw : String) : SpelledOut (spellOut (ColumnType.ofString raw)) :=
  (spelledOut_of_parts (ColumnType.parts_ofChars raw.toList)).spellOut

/-! ## What the text of a type tells -/

/-- The text up to the first space or opening parenthesis. -/
def firstWord (cs : List Char) : List Char :=
  cs.takeWhile fun c => !(c == ' ' || c == '(')

theorem firstWord_append {base rest : List Char} (hspace : ' ' ∉ base) (hopen : '(' ∉ base)
    (hrest : ∀ c ∈ rest.head?, c = ' ' ∨ c = '(') : firstWord (base ++ rest) = base := by
  have hbase : ∀ c ∈ base, (!(c == ' ' || c == '(')) = true := fun c hc => by
    have hs : c ≠ ' ' := fun e => hspace (e ▸ hc)
    have ho : c ≠ '(' := fun e => hopen (e ▸ hc)
    simp [hs, ho]
  rw [firstWord, List.takeWhile_append_of_pos hbase]
  cases rest with
  | nil => simp
  | cons c cs => rcases hrest c rfl with rfl | rfl <;> simp

theorem head?_tail (t : ColumnType) : ∀ c ∈ t.tail.head?, c = ' ' ∨ c = '(' := by
  unfold ColumnType.tail
  cases t.args with
  | some a => simp
  | none => split <;> simp

theorem firstWord_render {t : ColumnType} (hspace : ' ' ∉ t.base.toList)
    (hopen : '(' ∉ t.base.toList) : firstWord t.render.toList = t.base.toList := by
  rw [ColumnType.toList_render, firstWord_append hspace hopen (head?_tail t)]

theorem firstWord_render_twoWords {t : ColumnType} (h : t.base ∈ ColumnType.twoWordBases) :
    firstWord t.render.toList ∈ ["double".toList, "long".toList] := by
  rw [ColumnType.toList_render]
  simp only [ColumnType.twoWordBases, List.mem_cons, List.not_mem_nil, or_false] at h
  rcases h with h | h | h <;> rw [h] <;> simp [firstWord]

theorem modifiers_inj {m m' : String} (h : (if m = "" then [] else ' ' :: m.toList) =
    if m' = "" then [] else ' ' :: m'.toList) : m = m' := by
  split at h <;> split at h <;> simp_all [String.toList_inj]

/-- Parentheses in the text of a type that is no clock are those of its arguments. -/
theorem paren_mem_render_iff {t : ColumnType} (h : SpelledOut t) (hc : t.base ∉ clockBases) :
    '(' ∈ t.render.toList ↔ t.args.isSome = true := by
  rw [ColumnType.toList_render, ColumnType.tail]
  cases h with
  | listed a hargs _ _ => simp [hargs]
  | bare hargs hopen hrest _ => split <;> simp [hargs, hopen, hrest]
  | clock _ hbase => exact absurd hbase hc

theorem oneWord_of_numberBase {b : String} (h : b ∈ numberBases) :
    ' ' ∉ b.toList ∧ '(' ∉ b.toList ∧ b ∉ clockBases ∧
      b.toList ∉ ["double".toList, "long".toList] := by
  revert b
  decide

theorem oneWord_of_clockBase {b : String} (h : b ∈ clockBases) :
    ' ' ∉ b.toList ∧ '(' ∉ b.toList := by
  revert b
  decide

theorem eq_of_parts {t u : ColumnType} (hbase : t.base = u.base) (hargs : t.args = u.args)
    (hmodifiers : t.modifiers = u.modifiers) : t = u := by
  cases t
  cases u
  simp_all

/-- **The text of a number tells its parts.** -/
theorem eq_of_render_eq {t u : ColumnType} (ht : SpelledOut t) (hu : SpelledOut u)
    (hb : t.base ∈ numberBases) (h : t.render = u.render) : t = u := by
  obtain ⟨hspace, hopen, hclock, hword⟩ := oneWord_of_numberBase hb
  have hfirst : firstWord u.render.toList = t.base.toList := by
    rw [← h, firstWord_render hspace hopen]
  have hclock' : u.base ∉ clockBases := fun hm => by
    obtain ⟨hs, ho⟩ := oneWord_of_clockBase hm
    rw [firstWord_render hs ho, String.toList_inj] at hfirst
    exact hclock (hfirst ▸ hm)
  have hparen : t.args.isSome = u.args.isSome := by
    rw [Bool.eq_iff_iff, ← paren_mem_render_iff ht hclock, ← paren_mem_render_iff hu hclock', h]
  have e := congrArg String.toList h
  rw [ColumnType.toList_render, ColumnType.toList_render, ColumnType.tail, ColumnType.tail] at e
  cases ht with
  | clock _ hbase => exact absurd hbase hclock
  | listed a hargs _ hclose =>
    cases hu with
    | clock _ hbase => exact absurd hbase hclock'
    | bare hargs' => simp [hargs, hargs'] at hparen
    | listed a' hargs' hopen' hclose' =>
      simp only [hargs, hargs', Option.elim_some, List.cons_append, List.append_assoc,
        List.nil_append] at e
      obtain ⟨hbase, e⟩ := eq_of_append_cons_eq hopen hopen' e
      obtain ⟨ha, e⟩ := eq_of_append_cons_eq hclose hclose' e
      exact eq_of_parts (String.toList_inj.1 hbase)
        (by rw [hargs, hargs', String.toList_inj.1 ha]) (modifiers_inj e)
  | bare hargs _ _ _ =>
    cases hu with
    | clock _ hbase => exact absurd hbase hclock'
    | listed a' hargs' => simp [hargs, hargs'] at hparen
    | bare hargs' hopen' _ hword' =>
      -- A base name of two words would begin with another word.
      have hspace' : ' ' ∉ u.base.toList := hword'.resolve_right fun hm =>
        hword (hfirst ▸ firstWord_render_twoWords hm)
      rw [firstWord_render hspace' hopen'] at hfirst
      simp only [hargs, hargs', hfirst, Option.elim_none, List.nil_append,
        List.append_cancel_left_eq] at e
      exact eq_of_parts (String.toList_inj.1 hfirst).symm (hargs.trans hargs'.symm)
        (modifiers_inj e)

/-! ## Types -/

theorem canonicalType_default (raw : String) :
    canonicalType .default raw = (spellOut (ColumnType.ofString raw)).render := by
  have hdefault : ¬Mode.default.isPush = true := by decide
  rw [canonicalType, if_neg hdefault]

theorem canonicalType_push (raw : String) : canonicalType .push raw =
    if (spellOut (ColumnType.ofString raw)).isSerial then "bigint unsigned"
    else (withoutWidth (spellOut (ColumnType.ofString raw))).render := by
  have hpush : Mode.push.isPush = true := by decide
  rw [canonicalType, if_pos hpush]

/-- Types that are no numbers are written alike in both modes. -/
theorem canonicalType_push_of_not_number {raw : String}
    (h : (spellOut (ColumnType.ofString raw)).base ∉ numberBases) :
    canonicalType .push raw = canonicalType .default raw := by
  simp only [numberBases, List.mem_cons, not_or] at h
  have hserial : ¬(spellOut (ColumnType.ofString raw)).isSerial = true := by
    simpa [ColumnType.isSerial] using h.1
  rw [canonicalType_push, if_neg hserial, withoutWidth, if_neg fun hw => h.2 hw.1,
    canonicalType_default]

/-- **Types that are the same in the mode `default` are the same in the mode `push`.** -/
theorem sameType_push {a b : String} (h : sameType .default a b = true) :
    sameType .push a b = true := by
  have e : (spellOut (ColumnType.ofString a)).render = (spellOut (ColumnType.ofString b)).render :=
    beq_iff_eq.1 h
  have hpush : canonicalType .push a = canonicalType .push b := by
    by_cases ha : (spellOut (ColumnType.ofString a)).base ∈ numberBases
    · rw [canonicalType_push, canonicalType_push,
        eq_of_render_eq (spelledOut_spellOut a) (spelledOut_spellOut b) ha e]
    by_cases hb : (spellOut (ColumnType.ofString b)).base ∈ numberBases
    · rw [canonicalType_push, canonicalType_push,
        eq_of_render_eq (spelledOut_spellOut b) (spelledOut_spellOut a) hb e.symm]
    · rw [canonicalType_push_of_not_number ha, canonicalType_push_of_not_number hb]
      exact e
  exact beq_iff_eq.2 hpush

/-! ## Other values -/

theorem sameCharSet_push {a b : Option String} (h : sameCharSet .default a b = true) :
    sameCharSet .push a b = true := by
  obtain rfl : a = b := beq_iff_eq.1 h
  exact beq_self_eq_true _

theorem sameCollation_push {a b : Option String} (h : sameCollation .default a b = true) :
    sameCollation .push a b = true := by
  obtain rfl : a = b := beq_iff_eq.1 h
  exact beq_self_eq_true _

theorem sameExpression_push {a b : String} (h : sameExpression .default a b = true) :
    sameExpression .push a b = true := by
  rw [sameExpression, Bool.or_eq_true] at h ⊢
  exact .inl (h.resolve_right Bool.false_ne_true)

theorem sameDefault_push {type : String} {a b : DefaultValue}
    (h : sameDefault .default type a b = true) : sameDefault .push type a b = true := by
  rw [sameDefault, Bool.or_eq_true] at h ⊢
  exact .inl (h.resolve_right Bool.false_ne_true)

theorem sameGenerated_push {a b : Generated} (h : sameGenerated .default a b = true) :
    sameGenerated .push a b = true := by
  rw [sameGenerated, Bool.and_eq_true] at h ⊢
  exact h.imp_right sameExpression_push

theorem bothSame_imp {α : Type} {same same' : α → α → Bool} {a b : Option α}
    (himp : ∀ x y, same x y = true → same' x y = true) (h : bothSame same a b = true) :
    bothSame same' a b = true := by
  cases a with
  | none => cases h
  | some x =>
    cases b with
    | none => cases h
    | some y => exact himp x y h

/-! ## Rules for deltas -/

theorem redundantInColumn_push {inKey : Bool} {type : String} {f : Column.Attribute}
    {d : Delta f.Value} (h : redundantInColumn .default inKey type f d = true) :
    redundantInColumn .push inKey type f d = true := by
  cases f with
  | type => exact sameType_push h
  | notNull => exact h
  | default => exact bothSame_imp (fun _ _ => sameDefault_push) h
  | autoIncrement => exact h
  | onUpdateNow => exact h
  | charSet => exact sameCharSet_push h
  | collation => exact sameCollation_push h
  | generated => exact bothSame_imp (fun _ _ => sameGenerated_push) h

theorem redundantInForeignKey_push {f : ForeignKey.Attribute} {d : Delta f.Value}
    (h : redundantInForeignKey .default f d = true) : redundantInForeignKey .push f d = true := by
  cases f with
  | nameExplicit => rfl
  | _ => cases h

theorem redundantInIndex_push {f : Index.Attribute} {d : Delta f.Value}
    (h : redundantInIndex .default f d = true) : redundantInIndex .push f d = true := by
  cases f with
  | nameExplicit | algorithm | lock => rfl
  | _ => cases h

theorem redundantInCheck_push {f : Check.Attribute} {d : Delta f.Value}
    (h : redundantInCheck .default f d = true) : redundantInCheck .push f d = true := by
  cases f with
  | nameExplicit => rfl
  | value => exact sameExpression_push h

theorem redundantInView_push {f : View.Attribute} {d : Delta f.Value}
    (h : redundantInView .default f d = true) : redundantInView .push f d = true := by
  cases f <;> cases h

theorem redundantInViewColumn_push {f : ViewColumn.Attribute} {d : Delta f.Value}
    (h : redundantInViewColumn .default f d = true) : redundantInViewColumn .push f d = true := by
  cases f with
  | type => exact sameType_push h
  | notNull => cases h

end Comparison

/-! ## What is left of alterations -/

namespace Alteration

variable {α φ : Type} {ν : φ → Type}

/-- An alteration of the same rows with at most the deltas of another one. -/
structure Remains (a b : Alteration α ν) : Prop where
  left : a.left = b.left
  right : a.right = b.right
  change : ∀ f d, a.change f = some d → b.change f = some d

variable [Attributed α φ ν] {a : Alteration α ν}

theorem prune_change {redundant : (f : φ) → Delta (ν f) → Bool} {b : Alteration α ν}
    (h : a.prune redundant = some b) :
    b = ⟨a.left, a.right, fun f => (a.change f).filter fun d => !redundant f d⟩ :=
  eq_of_nonempty? h

theorem prune_eq_none_iff {redundant : (f : φ) → Delta (ν f) → Bool} :
    a.prune redundant = none ↔ ∀ f d, a.change f = some d → redundant f d = true := by
  simp [prune, nonempty?_eq_none_iff, Option.filter_eq_none_iff]

/-- What is left by more rules is left by fewer. -/
theorem exists_remains {fewer more : (f : φ) → Delta (ν f) → Bool}
    (himp : ∀ f d, fewer f d = true → more f d = true) {x : Alteration α ν}
    (h : a.prune more = some x) : ∃ y, a.prune fewer = some y ∧ x.Remains y := by
  cases hy : a.prune fewer with
  | none =>
    have hx := prune_eq_none_iff.2 fun f d hd => himp f d (prune_eq_none_iff.1 hy f d hd)
    rw [h] at hx
    cases hx
  | some y =>
    refine ⟨y, rfl, ?_⟩
    rw [prune_change h, prune_change hy]
    refine ⟨rfl, rfl, fun f d hd => ?_⟩
    rw [Option.filter_eq_some_iff] at hd ⊢
    refine ⟨hd.1, ?_⟩
    rw [Bool.not_eq_true', ← Bool.not_eq_true] at hd ⊢
    exact fun hfewer => hd.2 (himp f d hfewer)

/-- **More rules leave a part of what fewer rules leave**, in the same order. -/
theorem sublistForall₂_prune {fewer more : Redundancy α ν}
    (himp : ∀ a f d, fewer a f d = true → more a f d = true) (as : List (Alteration α ν)) :
    List.SublistForall₂ Remains (as.filterMap fun a => a.prune (more a))
      (as.filterMap fun a => a.prune (fewer a)) := by
  induction as with
  | nil => exact .nil
  | cons a as ih =>
    simp only [List.filterMap_cons]
    cases hx : a.prune (more a) with
    | some x =>
      obtain ⟨y, hy, hxy⟩ := exists_remains (himp a) hx
      rw [hy]
      exact .cons hxy ih
    | none =>
      cases a.prune (fewer a) with
      | none => exact ih
      | some y => exact .cons_right ih

end Alteration

/-- Every alteration is between the same rows as one of the other alterations, has none but its
deltas, and comes in the same order. -/
structure Alterations.Within (a b : Alterations) : Prop where
  columns : a.columns.SublistForall₂ Alteration.Remains b.columns
  primaryKeys : a.primaryKeys.SublistForall₂ Alteration.Remains b.primaryKeys
  foreignKeys : a.foreignKeys.SublistForall₂ Alteration.Remains b.foreignKeys
  indexes : a.indexes.SublistForall₂ Alteration.Remains b.indexes
  checks : a.checks.SublistForall₂ Alteration.Remains b.checks
  views : a.views.SublistForall₂ Alteration.Remains b.views
  viewColumns : a.viewColumns.SublistForall₂ Alteration.Remains b.viewColumns

open Comparison in
theorem Alterations.prune_push_within (source target : Catalog) (a : Alterations) :
    (a.prune .push source target).Within (a.prune .default source target) where
  columns := Alteration.sublistForall₂_prune (fun _ _ _ => redundantInColumn_push) _
  primaryKeys := Alteration.sublistForall₂_prune (fun _ _ _ h => h) _
  foreignKeys := Alteration.sublistForall₂_prune (fun _ _ _ => redundantInForeignKey_push) _
  indexes := Alteration.sublistForall₂_prune (fun _ _ _ => redundantInIndex_push) _
  checks := Alteration.sublistForall₂_prune (fun _ _ _ => redundantInCheck_push) _
  views := Alteration.sublistForall₂_prune (fun _ _ _ => redundantInView_push) _
  viewColumns := Alteration.sublistForall₂_prune (fun _ _ _ => redundantInViewColumn_push) _

namespace Comparison

/-- **The mode `push` only hides more** than the mode `default`: of alterations between any two
catalogs and of values of any kind. -/
theorem push_hides_more :
    (∀ source target : Catalog,
      ((source.difference target).alterations.prune .push source target).Within
        ((source.difference target).alterations.prune .default source target)) ∧
    (∀ a b, sameType .default a b = true → sameType .push a b = true) ∧
    (∀ type a b, sameDefault .default type a b = true → sameDefault .push type a b = true) ∧
    (∀ a b, sameCharSet .default a b = true → sameCharSet .push a b = true) ∧
    (∀ a b, sameCollation .default a b = true → sameCollation .push a b = true) ∧
    ∀ a b, sameExpression .default a b = true → sameExpression .push a b = true :=
  ⟨fun source target => Alterations.prune_push_within source target _,
    fun _ _ => sameType_push, fun _ _ _ => sameDefault_push, fun _ _ => sameCharSet_push,
    fun _ _ => sameCollation_push, fun _ _ => sameExpression_push⟩

/-- Values that the mode `default` takes for the same: synonyms of a type, ways to call the clock,
one character set and one collation, and parentheses around an expression. -/
theorem push_hides_more_of_synonyms :
    (sameType .default "INTEGER ( 10 )" "int(10)" = true ∧
      sameType .push "INTEGER ( 10 )" "int(10)" = true) ∧
    (sameDefault .default "timestamp" ⟨"(now())", .unknown⟩ ⟨"LOCALTIME", .unknown⟩ = true ∧
      sameDefault .push "timestamp" ⟨"(now())", .unknown⟩ ⟨"LOCALTIME", .unknown⟩ = true) ∧
    (sameCharSet .default (some "utf8") (some "utf8") = true ∧
      sameCharSet .push (some "utf8") (some "utf8") = true) ∧
    (sameCollation .default none none = true ∧ sameCollation .push none none = true) ∧
    (sameExpression .default "(a > 0)" "a > 0" = true ∧
      sameExpression .push "(a > 0)" "a > 0" = true) := by
  obtain ⟨-, htype, hdefault, hcharSet, hcollation, hexpression⟩ := push_hides_more
  have ht : sameType .default "INTEGER ( 10 )" "int(10)" = true := by decide +kernel
  have hd : sameDefault .default "timestamp" ⟨"(now())", .unknown⟩ ⟨"LOCALTIME", .unknown⟩ =
      true := by decide +kernel
  have hs : sameCharSet .default (some "utf8") (some "utf8") = true := by decide
  have hc : sameCollation .default none none = true := by decide
  have he : sameExpression .default "(a > 0)" "a > 0" = true := by decide +kernel
  exact ⟨⟨ht, htype _ _ ht⟩, ⟨hd, hdefault _ _ _ hd⟩, ⟨hs, hcharSet _ _ hs⟩,
    ⟨hc, hcollation _ _ hc⟩, ⟨he, hexpression _ _ he⟩⟩

end Comparison

end SchemaEvolution
