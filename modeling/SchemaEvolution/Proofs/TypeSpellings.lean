import Mathlib.Logic.Relation
import SchemaEvolution.Proofs.ColumnTypes
import SchemaEvolution.Proofs.Words

/-!
# Spellings of a column type

The same column type can be written with more or fewer blanks and in capital or small letters. A
change of that kind (`Restyled`) puts blanks around the text or beside a character where they have
no meaning (`Loose`): a blank, the parentheses around the arguments and the commas between them. Or
it changes the case of ASCII letters.

**Theorem (`ColumnType.normal_form`).** The text of a type that was read is its normal form: it
reads as that type again. And a text reads as the same type after any number of such changes.

Both come from reading a text part by part. Without arguments the type depends on the words of the
text only, and these are the words of the base name and of what follows it (`words_splitBase`). With
arguments, the opening parenthesis is a seam, where the text can be cut before it is folded; so can
the arguments be at the closing one (`ofChars_open`). Each part is folded for itself, and folding
heeds neither blanks at the ends nor the case of ASCII letters, and changes nothing the second time.
-/

namespace SchemaEvolution

open Text Sql Expression

namespace Sql.ColumnType

variable {xs ys cs ds base rest args modifiers w : List Char} {m : Char}

/-! ## Reading part by part -/

theorem seam_open : Seam '(' := by decide +kernel

theorem seam_close : Seam ')' := by decide +kernel

theorem seam_comma : Seam ',' := by decide +kernel

/-- What follows the opening parenthesis of a type: arguments, and modifiers behind a closing
parenthesis if there is one. -/
inductive Arguments : List Char → List Char → List Char → Prop
  | closed {args modifiers : List Char} (h : ')' ∉ args) :
      Arguments (args ++ ')' :: modifiers) args modifiers
  | unclosed {args : List Char} (h : ')' ∉ args) : Arguments args args []

theorem exists_arguments (rest : List Char) : ∃ args modifiers, Arguments rest args modifiers := by
  cases hcut : cutAt [')'] rest with
  | none => exact ⟨rest, [], .unclosed (cutAt_char_eq_none_iff.1 hcut)⟩
  | some sides =>
    obtain ⟨rfl, hclose⟩ := cutAt_char_eq_some_iff.1 hcut
    exact ⟨sides.1, sides.2, .closed hclose⟩

theorem Arguments.append_left (h : Arguments rest args modifiers) (hxs : ')' ∉ xs) :
    Arguments (xs ++ rest) (xs ++ args) modifiers := by
  cases h with
  | closed hargs =>
    rw [← List.append_assoc]
    exact .closed (List.not_mem_append hxs hargs)
  | unclosed hargs => exact .unclosed (List.not_mem_append hxs hargs)

theorem Arguments.not_mem (h : Arguments rest args modifiers) : ')' ∉ args := by
  cases h with
  | closed hargs => exact hargs
  | unclosed hargs => exact hargs

/-- Folding keeps the arguments and the modifiers apart. -/
theorem Arguments.cut_folded (h : Arguments rest args modifiers) (hw : ∀ c ∈ w, isBlank c = true) :
    ∃ a b, (cutAt [')'] (w ++ folded rest)).getD (w ++ folded rest, []) = (a, b) ∧
      withoutBlanks a = withoutBlanks (folded args) ∧ trim b = folded modifiers := by
  have hclose {cs : List Char} (h : ')' ∉ cs) : ')' ∉ folded cs :=
    mt (mem_of_mem_folded seam_close (by decide)) h
  have hw' : ')' ∉ w := not_mem_of_blank (by decide) hw
  cases h with
  | closed hargs =>
    obtain ⟨s, t, hs, ht, hfolded⟩ :=
      exists_folded_append_cons seam_close (by decide) args modifiers
    have hcut : cutAt [')'] (w ++ folded (args ++ ')' :: modifiers)) =
        some (w ++ (folded args ++ s), t ++ folded modifiers) := by
      refine cutAt_char_eq_some_iff.2 ⟨by simp only [hfolded, List.append_assoc], ?_⟩
      exact List.not_mem_append hw'
        (List.not_mem_append (hclose hargs) (not_mem_of_blank (by decide) hs))
    refine ⟨_, _, by rw [hcut, Option.getD_some], ?_, ?_⟩
    · rw [withoutBlanks_append, withoutBlanks_append, withoutBlanks_of_blank hw,
        withoutBlanks_of_blank hs, List.nil_append, List.append_nil]
    · rw [trim_blank_append ht, trim_folded]
  | unclosed hargs =>
    have hcut : cutAt [')'] (w ++ folded rest) = none :=
      cutAt_char_eq_none_iff.2 (List.not_mem_append hw' (hclose hargs))
    refine ⟨_, [], by rw [hcut, Option.getD_none], ?_, rfl⟩
    rw [withoutBlanks_append, withoutBlanks_of_blank hw, List.nil_append]

/-- **A type with arguments is read part by part**, and each part is folded for itself. -/
theorem ofChars_open (hbase : '(' ∉ base) (h : Arguments rest args modifiers) :
    ofChars (base ++ '(' :: rest) = ⟨String.ofList (folded base),
      some (String.ofList (withoutBlanks (folded args))), String.ofList (folded modifiers)⟩ := by
  obtain ⟨s, t, hs, ht, hfolded⟩ := exists_folded_append_cons seam_open (by decide) base rest
  have hcut : cutAt ['('] (folded (base ++ '(' :: rest)) =
      some (folded base ++ s, t ++ folded rest) := by
    refine cutAt_char_eq_some_iff.2 ⟨hfolded, List.not_mem_append ?_ ?_⟩
    · exact mt (mem_of_mem_folded seam_open (by decide)) hbase
    · exact not_mem_of_blank (by decide) hs
  obtain ⟨a, b, hrest, hargs, hmodifiers⟩ := h.cut_folded ht
  rw [ofChars, hcut]
  simp only [hrest]
  rw [trim_append_blank hs, trim_folded, hargs, hmodifiers]

theorem ofChars_bare (h : '(' ∉ cs) : ofChars cs = ⟨String.ofList (splitBase (folded cs)).1, none,
    String.ofList (splitBase (folded cs)).2⟩ := by
  have hcut : cutAt ['('] (folded cs) = none :=
    cutAt_char_eq_none_iff.2 (mt (mem_of_mem_folded seam_open (by decide)) h)
  rw [ofChars, hcut]

theorem ofChars_congr (h : folded cs = folded ds) : ofChars cs = ofChars ds := by
  rw [ofChars, ofChars, h]

/-- The base name and what follows it have the words of the text. -/
theorem words_splitBase (cs : List Char) :
    words (splitBase cs).1 ++ words (splitBase cs).2 = words cs := by
  have hnil : words [] = [] := rfl
  have hspace (base rest : List Char) : words (base ++ ' ' :: rest) = words base ++ words rest :=
    words_append_blank (by decide) base rest
  obtain ⟨b, -, hsplit, hcs⟩ | ⟨b, -, rest, hsplit, hcs⟩ | ⟨hsplit, -⟩ |
    ⟨base, rest, hsplit, hcs, -⟩ := splitBase_cases cs
  · rw [hsplit, hnil, List.append_nil, hcs]
  · rw [hsplit, words_trim, ← hspace, ← hcs]
  · rw [hsplit, hnil, List.append_nil]
  · rw [hsplit, ← hspace, ← hcs]

/-! ## The text of a type -/

/-- The modifiers of a type as they stand in its text. -/
def modifiersText (modifiers : List Char) : List Char :=
  if modifiers = [] then [] else ' ' :: modifiers

theorem words_append_modifiersText (base modifiers : List Char) :
    words (base ++ modifiersText modifiers) = words base ++ words modifiers := by
  rw [modifiersText]
  split
  next h => simp [h, words]
  next => exact words_append_blank (by decide) base modifiers

theorem toList_render_bare (base modifiers : List Char) :
    (render ⟨String.ofList base, none, String.ofList modifiers⟩).toList =
      base ++ modifiersText modifiers := by
  simp [toList_render, tail, modifiersText, String.ofList_eq_empty_iff]

theorem toList_render_listed (base args modifiers : List Char) :
    (render ⟨String.ofList base, some (String.ofList args), String.ofList modifiers⟩).toList =
      base ++ '(' :: (args ++ ')' :: modifiersText modifiers) := by
  simp [toList_render, tail, modifiersText, String.ofList_eq_empty_iff]

/-- **The text of a type that was read reads as the type.** -/
theorem ofChars_render (cs : List Char) : ofChars (ofChars cs).render.toList = ofChars cs := by
  cases hcut : cutAt ['('] cs with
  | none =>
    -- the base name may be two words, so only the words of the text are those of the parts
    have hbare := ofChars_bare (cutAt_char_eq_none_iff.1 hcut)
    have hwords : words (ofChars cs).render.toList = words (folded cs) := by
      rw [hbare, toList_render_bare, words_append_modifiersText, words_splitBase]
    exact ofChars_congr ((folded_congr hwords).trans (folded_folded cs))
  | some sides =>
    obtain ⟨rfl, hbase⟩ := cutAt_char_eq_some_iff.1 hcut
    obtain ⟨args, modifiers, hargs⟩ := exists_arguments sides.2
    have hbase' : '(' ∉ folded sides.1 := mt (mem_of_mem_folded seam_open (by decide)) hbase
    have hclose : ')' ∉ withoutBlanks (folded args) := fun h =>
      hargs.not_mem (mem_of_mem_folded seam_close (by decide) (List.mem_of_mem_filter h))
    have hmodifiers : folded (modifiersText (folded modifiers)) = folded modifiers :=
      (folded_congr (words_append_modifiersText [] _)).trans (folded_folded modifiers)
    rw [ofChars_open hbase hargs, toList_render_listed, ofChars_open hbase' (.closed hclose),
      folded_folded, folded_withoutBlanks_folded, hmodifiers,
      withoutBlanks_eq_self (solid_withoutBlanks _)]

/-! ## Other spellings -/

/-- A character beside which blanks have no meaning, by the text before it. -/
inductive Loose : List Char → Char → Prop
  | blank {before : List Char} {b : Char} (hb : isBlank b = true) : Loose before b
  /-- The first opening parenthesis. -/
  | opening {before : List Char} (hopen : '(' ∉ before) : Loose before '('
  /-- The first closing parenthesis behind it. -/
  | closing {base args : List Char} (hopen : '(' ∉ base) (hclose : ')' ∉ args) :
      Loose (base ++ '(' :: args) ')'
  /-- A comma between the two. -/
  | comma {base args : List Char} (hopen : '(' ∉ base) (hclose : ')' ∉ args) :
      Loose (base ++ '(' :: args) ','

/-- A text with further blanks where they have no meaning, or with ASCII letters in another case. -/
inductive Restyled : List Char → List Char → Prop
  | front {cs w : List Char} (hw : ∀ c ∈ w, isBlank c = true) : Restyled cs (w ++ cs)
  | back {cs w : List Char} (hw : ∀ c ∈ w, isBlank c = true) : Restyled cs (cs ++ w)
  | before {xs ys w : List Char} {m : Char} (hm : Loose xs m) (hw : ∀ c ∈ w, isBlank c = true) :
      Restyled (xs ++ m :: ys) (xs ++ w ++ m :: ys)
  | behind {xs ys w : List Char} {m : Char} (hm : Loose xs m) (hw : ∀ c ∈ w, isBlank c = true) :
      Restyled (xs ++ m :: ys) (xs ++ m :: (w ++ ys))
  | letters {cs ds : List Char} (h : cs.map Char.toLower = ds.map Char.toLower) : Restyled cs ds

theorem ofChars_comma (hopen : '(' ∉ base) (hclose : ')' ∉ xs) (h : Arguments rest args modifiers) :
    ofChars (base ++ '(' :: (xs ++ ',' :: rest)) = ⟨String.ofList (folded base),
      some (String.ofList (withoutBlanks (folded xs) ++ ',' :: withoutBlanks (folded args))),
      String.ofList (folded modifiers)⟩ := by
  have hcomma : ')' ∉ [','] := by decide
  have hargs : Arguments (xs ++ ',' :: rest) (xs ++ ',' :: args) modifiers :=
    (h.append_left hcomma).append_left hclose
  rw [ofChars_open hopen hargs, withoutBlanks_folded_append_cons seam_comma (by decide)]

theorem Loose.ofChars_before (hm : Loose xs m) (hw : ∀ c ∈ w, isBlank c = true) (ys : List Char) :
    ofChars (xs ++ w ++ m :: ys) = ofChars (xs ++ m :: ys) := by
  have hclosing : ')' ∉ w := not_mem_of_blank (by decide) hw
  have hopening : '(' ∉ w := not_mem_of_blank (by decide) hw
  cases hm with
  | blank hb =>
    refine ofChars_congr (folded_congr ?_)
    rw [words_append_blank hb, words_append_blank hb, words_append_blanks hw]
  | opening hopen =>
    obtain ⟨args, modifiers, hargs⟩ := exists_arguments ys
    rw [ofChars_open (List.not_mem_append hopen hopening) hargs, ofChars_open hopen hargs,
      folded_append_blanks hw]
  | @closing base args hopen hclose =>
    have hargs : Arguments (args ++ w ++ ')' :: ys) (args ++ w) ys :=
      .closed (List.not_mem_append hclose hclosing)
    simp only [List.append_assoc, List.cons_append] at hargs ⊢
    rw [ofChars_open hopen hargs, ofChars_open hopen (.closed hclose), folded_append_blanks hw]
  | @comma base args hopen hclose =>
    obtain ⟨more, modifiers, hmore⟩ := exists_arguments ys
    have hwider := ofChars_comma hopen (List.not_mem_append hclose hclosing) hmore
    simp only [List.append_assoc, List.cons_append] at hwider ⊢
    rw [hwider, ofChars_comma hopen hclose hmore, folded_append_blanks hw]

theorem Loose.ofChars_behind (hm : Loose xs m) (hw : ∀ c ∈ w, isBlank c = true) (ys : List Char) :
    ofChars (xs ++ m :: (w ++ ys)) = ofChars (xs ++ m :: ys) := by
  have hclosing : ')' ∉ w := not_mem_of_blank (by decide) hw
  cases hm with
  | blank hb =>
    refine ofChars_congr (folded_congr ?_)
    rw [words_append_blank hb, words_append_blank hb, words_blanks_append hw]
  | opening hopen =>
    obtain ⟨args, modifiers, hargs⟩ := exists_arguments ys
    rw [ofChars_open hopen (hargs.append_left hclosing), ofChars_open hopen hargs,
      folded_blanks_append hw]
  | @closing base args hopen hclose =>
    simp only [List.append_assoc, List.cons_append]
    rw [ofChars_open hopen (.closed hclose), ofChars_open hopen (.closed hclose),
      folded_blanks_append hw]
  | @comma base args hopen hclose =>
    obtain ⟨more, modifiers, hmore⟩ := exists_arguments ys
    simp only [List.append_assoc, List.cons_append]
    rw [ofChars_comma hopen hclose (hmore.append_left hclosing), ofChars_comma hopen hclose hmore,
      folded_blanks_append hw]

/-- **Another spelling reads as the same type.** -/
theorem Restyled.ofChars_eq (h : Restyled cs ds) : ofChars ds = ofChars cs := by
  cases h with
  | front hw => exact ofChars_congr (folded_blanks_append hw cs)
  | back hw => exact ofChars_congr (folded_append_blanks hw cs)
  | @before xs ys w m hm hw => exact hm.ofChars_before hw ys
  | @behind xs ys w m hm hw => exact hm.ofChars_behind hw ys
  | letters h =>
    refine ofChars_congr ?_
    rw [← folded_map_toLower ds, ← h, folded_map_toLower]

/-- **The text of a type is its normal form.** It reads as the type, whatever text that was read
from; and a text with blanks added where they have no meaning, or with ASCII letters in another
case, reads as the same type. -/
theorem normal_form (raw : String) : ofString (ofString raw).render = ofString raw ∧
    ∀ raw' : String, Relation.ReflTransGen Restyled raw.toList raw'.toList →
      ofString raw' = ofString raw := by
  refine ⟨ofChars_render raw.toList, fun raw' h => ?_⟩
  have hsteps {cs : List Char} (h : Relation.ReflTransGen Restyled raw.toList cs) :
      ofChars cs = ofString raw := by
    induction h with
    | refl => rfl
    | tail _ hstep ih => exact hstep.ofChars_eq.trans ih
  exact hsteps h

theorem normal_form_of_nested :
    let raw := "SET('a',(b) x (y"
    let raw' := "\tSet( 'A' ,(b )\n x (y"
    Relation.ReflTransGen Restyled raw.toList raw'.toList ∧
      ofString raw' = ⟨"set", some "'a',(b", "x (y"⟩ ∧
      ofString (ofString raw').render = ofString raw' ∧ ofString raw' = ofString raw := by
  intro raw raw'
  have hspace : ∀ c ∈ " ".toList, isBlank c = true := List.all_eq_true.1 (by decide)
  have hfeed : ∀ c ∈ "\n".toList, isBlank c = true := List.all_eq_true.1 (by decide)
  have htab : ∀ c ∈ "\t".toList, isBlank c = true := List.all_eq_true.1 (by decide)
  have hletters : Restyled raw.toList "Set('A',(b) x (y".toList := .letters (by decide)
  have hopening : Restyled "Set('A',(b) x (y".toList "Set( 'A',(b) x (y".toList :=
    @Restyled.behind "Set".toList "'A',(b) x (y".toList " ".toList '('
      (.opening (by decide)) hspace
  have hcomma : Restyled "Set( 'A',(b) x (y".toList "Set( 'A' ,(b) x (y".toList :=
    @Restyled.before "Set( 'A'".toList "(b) x (y".toList " ".toList ','
      (@Loose.comma "Set".toList " 'A'".toList (by decide) (by decide)) hspace
  have hclosing : Restyled "Set( 'A' ,(b) x (y".toList "Set( 'A' ,(b ) x (y".toList :=
    @Restyled.before "Set( 'A' ,(b".toList " x (y".toList " ".toList ')'
      (@Loose.closing "Set".toList " 'A' ,(b".toList (by decide) (by decide)) hspace
  have hblank : Restyled "Set( 'A' ,(b ) x (y".toList "Set( 'A' ,(b )\n x (y".toList :=
    @Restyled.before "Set( 'A' ,(b )".toList "x (y".toList "\n".toList ' '
      (.blank (by decide)) hfeed
  have hfront : Restyled "Set( 'A' ,(b )\n x (y".toList "\tSet( 'A' ,(b )\n x (y".toList :=
    @Restyled.front "Set( 'A' ,(b )\n x (y".toList "\t".toList htab
  have hsteps : Relation.ReflTransGen Restyled raw.toList raw'.toList :=
    (((((Relation.ReflTransGen.single hletters).tail hopening).tail hcomma).tail hclosing).tail
      hblank).tail hfront
  obtain ⟨hrender, -⟩ := normal_form raw'
  obtain ⟨-, hsame⟩ := normal_form raw
  exact ⟨hsteps, by decide, hrender, hsame raw' hsteps⟩

end Sql.ColumnType

end SchemaEvolution
