import SchemaEvolution.Proofs.FoldedText
import SchemaEvolution.Proofs.Leniency

/-!
# Members of types that mean the same

The members of an enumeration are string literals in the text of its type. Types are compared by a
text that is folded, taken apart and put together again without heeding quotes. Letter case and
blanks within members are lost thereby, and all else is kept.

**Taking a type apart loses blanks only** (`withoutBlanks_render_of_parts`). A type put together
again is its text but for blanks and a parenthesis that was not closed.

**Synonyms touch no literal** (`literals_respelled`), as they replace a base name, or arguments
without quotes. The exceptions are numbers, which have no members: a decimal can get an argument
more, and in the mode `push` a whole number loses its arguments and a serial number all that follows
it (`rewrittenBases`).

**Theorem (`Comparison.members_kept`).** Types that are the same have the same literals up to letter
case and blanks, if no number has literals and no two of them have nothing but blanks in between.
Where no member has capital letters or blanks, the members are the same, character for character.
Where one has, it can change (`Comparison.members_lost`).
-/

namespace SchemaEvolution.Comparison

open Text Sql

/-! ## Types without blanks -/

theorem withoutBlanks_render (t : ColumnType) :
    withoutBlanks t.render.toList = withoutBlanks t.base.toList ++
      ((t.args.elim [] fun a => '(' :: (withoutBlanks a.toList ++ [')'])) ++
        withoutBlanks t.modifiers.toList) := by
  have hmodifiers : withoutBlanks (if t.modifiers = "" then [] else ' ' :: t.modifiers.toList) =
      withoutBlanks t.modifiers.toList := by
    split
    next h => rw [h]; rfl
    next => rfl
  rw [ColumnType.toList_render, ColumnType.tail, withoutBlanks_append, withoutBlanks_append,
    hmodifiers]
  cases t.args with
  | none => rfl
  | some a =>
    rw [Option.elim_some, Option.elim_some, ← List.singleton_append, withoutBlanks_append,
      withoutBlanks_append]
    rfl

theorem withoutBlanks_splitBase {cs base modifiers : List Char}
    (h : ColumnType.splitBase cs = (base, modifiers)) :
    withoutBlanks cs = withoutBlanks base ++ withoutBlanks modifiers := by
  have hspace (cs : List Char) : withoutBlanks (' ' :: cs) = withoutBlanks cs := rfl
  rcases ColumnType.splitBase_cases cs with
    ⟨b, -, hs, e⟩ | ⟨b, -, rest, hs, e⟩ | ⟨hs, -⟩ | ⟨b, rest, hs, e, -⟩
  all_goals obtain ⟨rfl, rfl⟩ := Prod.mk.inj (h.symm.trans hs)
  · rw [e]
    simp [withoutBlanks]
  · rw [e, withoutBlanks_append, hspace, withoutBlanks_trim]
  · simp [withoutBlanks]
  · rw [e, withoutBlanks_append, hspace]

/-- **A type put together again** is its text, but for blanks and a closing parenthesis. -/
theorem withoutBlanks_render_of_parts {text : List Char} {t : ColumnType}
    (h : ColumnType.Parts text t) : withoutBlanks t.render.toList = withoutBlanks text ∨
      withoutBlanks t.render.toList = withoutBlanks text ++ [')'] := by
  have hagain (cs : List Char) : withoutBlanks (withoutBlanks cs) = withoutBlanks cs :=
    withoutBlanks_eq_self fun c hc => by simpa using (List.mem_filter.1 hc).2
  have hopen (cs : List Char) : withoutBlanks ('(' :: cs) = '(' :: withoutBlanks cs := rfl
  have hclose (cs : List Char) : withoutBlanks (')' :: cs) = ')' :: withoutBlanks cs := rfl
  rw [withoutBlanks_render]
  cases h with
  | bare _ hsplit =>
    left
    simp [withoutBlanks_splitBase hsplit]
  | listed =>
    left
    simp [withoutBlanks_append, withoutBlanks_trim, hagain, hopen, hclose]
  | unclosed =>
    right
    simp [withoutBlanks_append, withoutBlanks_trim, hagain, hopen]
    rfl

/-! ## Synonyms -/

/-- Whether a text has no quotes. -/
abbrev Unquoted (s : String) : Prop :=
  '\'' ∉ s.toList

/-- How a type is spelled out. -/
inductive Respelled (t : ColumnType) : ColumnType → Prop
  /-- As it is. -/
  | same : Respelled t t
  /-- With another base name. -/
  | renamed {base : String} (hbase : Unquoted t.base) (hbase' : Unquoted base) :
      Respelled t { t with base }
  /-- With a default argument added or taken away. -/
  | reargued {base : String} {args : Option String} (hbase : Unquoted t.base)
      (hargs : ∀ a ∈ t.args, Unquoted a) (hbase' : Unquoted base)
      (hargs' : ∀ a ∈ args, Unquoted a) : Respelled t { t with base, args }
  /-- As a decimal with all its arguments. -/
  | decimal {args : Option String} (hargs : (∀ a ∈ t.args, Unquoted a) → ∀ a ∈ args, Unquoted a) :
      Respelled t { t with base := "decimal", args }

theorem respelled_spellOut (t : ColumnType) : Respelled t (spellOut t) := by
  have hnone : ∀ a ∈ (none : Option String), Unquoted a := nofun
  have hsome {s : String} (hs : Unquoted s) : ∀ a ∈ some s, Unquoted a := by
    rintro a ha
    obtain rfl := Option.mem_some_iff.1 ha
    exact hs
  unfold spellOut
  split
  next h =>
    have hnames : ∀ b ∈ ["boolean", "bool"], Unquoted b := by decide
    exact .reargued (hnames _ h.1) (h.2 ▸ hnone) (by decide) (hsome (by decide))
  split
  next h =>
    have hnames : ∀ b ∈ ["binary", "char"], Unquoted b := by decide
    exact .reargued (hnames _ h.1) (h.2 ▸ hnone) (hnames _ h.1) (hsome (by decide))
  split
  next h => exact .renamed (h ▸ by decide) (by decide)
  split
  next =>
    refine .decimal fun hargs => hsome ?_
    split
    next => decide
    next a ha =>
      have hq := hargs a ha
      split
      · exact hq
      · simpa [Unquoted] using hq
  split
  next h =>
    have hnames : ∀ b ∈ ["double precision", "real"], Unquoted b := by decide
    exact .renamed (hnames _ h) (by decide)
  split
  next h =>
    have hnames : ∀ b ∈ ["timestamp", "datetime", "time"], Unquoted b := by decide
    exact .reargued (hnames _ h.1) (h.2 ▸ hsome (by decide)) (hnames _ h.1) hnone
  next => exact .same

section

variable {base : String} {args : Option String}

theorem literals_render (hbase : Unquoted base) (args : Option String) (modifiers : String) :
    literals (withoutBlanks (ColumnType.render ⟨base, args, modifiers⟩).toList) =
      literals ((args.elim [] fun a => '(' :: (withoutBlanks a.toList ++ [')'])) ++
        withoutBlanks modifiers.toList) := by
  rw [withoutBlanks_render, literals_append_left (mt quote_mem_withoutBlanks_iff.1 hbase)]

theorem literals_render_of_args (hbase : Unquoted base) (hargs : ∀ a ∈ args, Unquoted a)
    (modifiers : String) :
    literals (withoutBlanks (ColumnType.render ⟨base, args, modifiers⟩).toList) =
      literals (withoutBlanks modifiers.toList) := by
  rw [literals_render hbase, literals_append_left]
  cases args with
  | none => exact List.not_mem_nil
  | some a =>
    have ha : '\'' ∉ withoutBlanks a.toList := mt quote_mem_withoutBlanks_iff.1 (hargs a rfl)
    simp [ha]

end

/-- **Synonyms touch no literal**, except in decimals. -/
theorem literals_respelled {t u : ColumnType} (h : Respelled t u) (hu : u.base ≠ "decimal") :
    literals (withoutBlanks u.render.toList) = literals (withoutBlanks t.render.toList) := by
  obtain ⟨base, args, modifiers⟩ := t
  cases h with
  | same => rfl
  | renamed hbase hbase' => rw [literals_render hbase, literals_render hbase']
  | reargued hbase hargs hbase' hargs' =>
    rw [literals_render_of_args hbase hargs, literals_render_of_args hbase' hargs']
  | decimal => exact absurd rfl hu

theorem unquoted_render_iff {t : ColumnType} : Unquoted t.render ↔
    Unquoted t.base ∧ (∀ a ∈ t.args, Unquoted a) ∧ Unquoted t.modifiers := by
  have hmodifiers : '\'' ∉ (if t.modifiers = "" then [] else ' ' :: t.modifiers.toList) ↔
      Unquoted t.modifiers := by
    split
    next h => rw [h]; decide
    next => simp
  rw [Unquoted, ColumnType.toList_render, ColumnType.tail, List.mem_append, List.mem_append, not_or,
    not_or, hmodifiers]
  cases t.args <;> simp

theorem unquoted_respelled {t u : ColumnType} (h : Respelled t u) (ht : Unquoted t.render) :
    Unquoted u.render := by
  rw [unquoted_render_iff] at ht ⊢
  obtain ⟨hbase, hargs, hmodifiers⟩ := ht
  cases h with
  | same => exact ⟨hbase, hargs, hmodifiers⟩
  | renamed _ hbase' => exact ⟨hbase', hargs, hmodifiers⟩
  | reargued _ _ hbase' hargs' => exact ⟨hbase', hargs', hmodifiers⟩
  | decimal hargs' =>
    have hdecimal : Unquoted "decimal" := by decide
    exact ⟨hdecimal, hargs' hargs, hmodifiers⟩

theorem unquoted_withoutWidth {t : ColumnType} (h : Unquoted t.render) :
    Unquoted (withoutWidth t).render := by
  unfold withoutWidth
  split
  next =>
    rw [unquoted_render_iff] at h ⊢
    exact ⟨h.1, nofun, h.2.2⟩
  next => exact h

/-! ## The text that is compared -/

/-- Base names of the types of which the comparison changes more than the spelling. -/
def rewrittenBases : Mode → List String
  | .default => ["decimal"]
  | .push => "decimal" :: numberBases

theorem literals_canonicalType {mode : Mode} {raw : String}
    (h : (spellOut (ColumnType.ofString raw)).base ∉ rewrittenBases mode) :
    literals (withoutBlanks (canonicalType mode raw).toList) =
      literals (withoutBlanks (Expression.folded raw.toList)) := by
  have hdecimal : (spellOut (ColumnType.ofString raw)).base ≠ "decimal" := fun e => by
    cases mode <;> simp [rewrittenBases, e] at h
  have hdefault : canonicalType mode raw = (spellOut (ColumnType.ofString raw)).render := by
    cases mode with
    | default => exact canonicalType_default raw
    | push =>
      rw [canonicalType_push_of_not_number fun hm => h (List.mem_cons_of_mem _ hm),
        canonicalType_default]
  rw [hdefault, literals_respelled (respelled_spellOut _) hdecimal]
  obtain e | e := withoutBlanks_render_of_parts (ColumnType.parts_ofChars raw.toList)
  · rw [ColumnType.ofString, e]
  · rw [ColumnType.ofString, e, literals_append_right (by decide)]

theorem unquoted_canonicalType {mode : Mode} {raw : String} (h : Unquoted raw) :
    Unquoted (canonicalType mode raw) := by
  have hfolded : '\'' ∉ withoutBlanks (Expression.folded raw.toList) := fun hm =>
    h (quote_mem_of_folded (quote_mem_withoutBlanks_iff.1 hm))
  have hparts : Unquoted (ColumnType.ofString raw).render := by
    rw [Unquoted, ← quote_mem_withoutBlanks_iff]
    obtain e | e := withoutBlanks_render_of_parts (ColumnType.parts_ofChars raw.toList)
    · rwa [ColumnType.ofString, e]
    · rw [ColumnType.ofString, e, List.mem_append, not_or]
      exact ⟨hfolded, by decide⟩
  have hspelled := unquoted_respelled (respelled_spellOut _) hparts
  cases mode with
  | default => rwa [canonicalType_default]
  | push =>
    rw [canonicalType_push]
    split
    next => decide
    next => exact unquoted_withoutWidth hspelled

/-! ## Members -/

/-- A literal in lower case without blanks. -/
def memberLiteral (l : List Char) : List Char :=
  caseless (withoutBlanks l)

/-- Types whose literals the comparison reads: something other than blanks stands between any two
literals, and the type is no number. -/
structure KeepsMembers (mode : Mode) (raw : String) : Prop where
  apart : Apart (erasing isBlank) raw.toList
  base : '\'' ∈ raw.toList → (spellOut (ColumnType.ofString raw)).base ∉ rewrittenBases mode

/-- The literals of the text that is compared are those of the type, folded. -/
theorem KeepsMembers.literals_eq {mode : Mode} {raw : String} (h : KeepsMembers mode raw) :
    (literals (withoutBlanks (canonicalType mode raw).toList)).map (List.map medial) =
      (literals raw.toList).map memberLiteral := by
  by_cases hq : '\'' ∈ raw.toList
  · have hblanks : literals (withoutBlanks raw.toList) = (literals raw.toList).map withoutBlanks :=
      literals_filter (by decide) h.apart
    rw [literals_canonicalType (h.base hq), ← literals_map_medial, withoutBlanks_folded,
      literals_caseless, hblanks, List.map_map]
    rfl
  · have hcanonical : '\'' ∉ withoutBlanks (canonicalType mode raw).toList :=
      mt quote_mem_withoutBlanks_iff.1 (unquoted_canonicalType hq)
    rw [literals_eq_nil hcanonical, literals_eq_nil hq]
    rfl

/-- **What is lost of members** when types are taken for the same is letter case and blanks. -/
theorem members_kept (mode : Mode) {a b : String} (h : sameType mode a b = true)
    (ha : KeepsMembers mode a) (hb : KeepsMembers mode b) :
    SameUpTo memberLiteral (literals a.toList) (literals b.toList) := by
  have e : canonicalType mode a = canonicalType mode b := beq_iff_eq.1 h
  refine .of_map_eq ?_
  rw [← ha.literals_eq, e, hb.literals_eq]

/-- An enumeration written in two ways, with a quote and a parenthesis in its members. -/
theorem members_kept_of_sizes :
    sameType .push "ENUM ( 's', '(m',  'it''s' )" "enum('s','(m','it''s')" = true ∧
      KeepsMembers .push "ENUM ( 's', '(m',  'it''s' )" ∧
      KeepsMembers .push "enum('s','(m','it''s')" ∧
      literals "ENUM ( 's', '(m',  'it''s' )".toList =
        literals "enum('s','(m','it''s')".toList := by
  have h : sameType .push "ENUM ( 's', '(m',  'it''s' )" "enum('s','(m','it''s')" = true := by
    decide +kernel
  have ha : KeepsMembers .push "ENUM ( 's', '(m',  'it''s' )" :=
    ⟨by decide +kernel, by decide +kernel⟩
  have hb : KeepsMembers .push "enum('s','(m','it''s')" := ⟨by decide +kernel, by decide +kernel⟩
  exact ⟨h, ha, hb, (members_kept .push h ha hb).asWritten (by decide +kernel) (by decide +kernel)⟩

/-- Types that are taken for the same, though a member changed in letter case or blanks, two members
became one, or a number had literals. -/
theorem members_lost :
    (sameType .default "enum('A')" "enum('a')" = true ∧
      literals "enum('A')".toList ≠ literals "enum('a')".toList) ∧
    (sameType .default "enum('a b')" "enum('ab')" = true ∧
      sameType .push "enum('a b')" "enum('ab')" = true ∧
      literals "enum('a b')".toList ≠ literals "enum('ab')".toList) ∧
    (sameType .default "enum('a' 'b')" "enum('a''b')" = true ∧
      literals "enum('a' 'b')".toList ≠ literals "enum('a''b')".toList) ∧
    (sameType .default "decimal('a)b')" "decimal('a,0)b')" = true ∧
      literals "decimal('a)b')".toList ≠ literals "decimal('a,0)b')".toList) ∧
    (sameType .push "int('a')" "int('b')" = true ∧
      literals "int('a')".toList ≠ literals "int('b')".toList) := by
  decide +kernel

end SchemaEvolution.Comparison
