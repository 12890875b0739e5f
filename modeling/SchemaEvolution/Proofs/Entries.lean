import Mathlib.Data.List.Infix
import Mathlib.Data.List.TakeWhile
import SchemaEvolution.Proofs.Trimming
import SchemaEvolution.Rename.Resolver

/-!
# Entries of renames

A renaming is recorded as an entry `old->new`, in which a column is named with its table,
`table.column`.

**Plain names can be read back** (`Plain`): they have neither blanks around them nor a dot or an
arrow within. So the label of a key tells the key (`Key.label_inj`), and **entries of plain keys
give the same renames again** (`RenameTable.ofEntries_entries`).
-/

namespace SchemaEvolution

open Text

/-! ## Cutting -/

namespace Text

variable {cs ds : List Char}

theorem dropStart?_append (start rest : List Char) :
    dropStart? start (start ++ rest) = some rest := by
  rw [dropStart?, if_pos (List.isPrefixOf_iff_prefix.2 (List.prefix_append ..)), List.drop_left]

theorem dropStart?_eq_none_iff {start : List Char} :
    dropStart? start cs = none ↔ ¬start <+: cs := by
  rw [dropStart?, ite_eq_right_iff, ← List.isPrefixOf_iff_prefix]
  simp

/-- An arrow that begins in a text ends there too, unless its second sign comes next. -/
theorem arrow_infix_of_head {c d : Char} {rest : List Char} (hd : d ≠ '>')
    (h : ['-', '>'] <+: c :: (cs ++ d :: rest)) : ['-', '>'] <:+: c :: cs := by
  obtain ⟨rfl, hnext⟩ := List.cons_prefix_cons.1 h
  cases cs with
  | nil => exact absurd (List.cons_prefix_cons.1 hnext).1.symm hd
  | cons e es =>
    obtain ⟨rfl, -⟩ := List.cons_prefix_cons.1 hnext
    exact ⟨[], es, rfl⟩

/-- **A text without an arrow ends at the first arrow behind it.** -/
theorem cutAt_arrow (h : ¬['-', '>'] <:+: cs) :
    cutAt ['-', '>'] (cs ++ ['-', '>'] ++ ds) = some (cs, ds) := by
  rw [List.append_assoc]
  induction cs with
  | nil =>
    have hd : dropStart? ['-', '>'] ('-' :: '>' :: ds) = some ds := dropStart?_append ['-', '>'] ds
    show cutAt ['-', '>'] ('-' :: '>' :: ds) = _
    rw [cutAt, hd]
  | cons c cs ih =>
    rw [List.infix_cons_iff, not_or] at h
    have hc : dropStart? ['-', '>'] (c :: (cs ++ (['-', '>'] ++ ds))) = none :=
      dropStart?_eq_none_iff.2 fun hp =>
        (List.infix_cons_iff.1 (arrow_infix_of_head (by decide) hp)).elim h.1 h.2
    rw [List.cons_append, cutAt, hc, ih h.2]
    rfl

/-- Texts with a dot between them have an arrow only if one of them has. -/
theorem arrow_infix_of_dot (h : ['-', '>'] <:+: cs ++ '.' :: ds) :
    ['-', '>'] <:+: cs ∨ ['-', '>'] <:+: ds := by
  induction cs with
  | nil =>
    rcases List.infix_cons_iff.1 h with h | h
    · cases (List.cons_prefix_cons.1 h).1
    · exact .inr h
  | cons c cs ih =>
    rcases List.infix_cons_iff.1 h with h | h
    · exact .inl (arrow_infix_of_head (by decide) h)
    · exact (ih h).imp_left fun h => List.infix_cons_iff.2 (.inr h)

end Text

/-! ## Names that can be read back -/

/-- A text that can stand on a side of an entry. -/
structure Recordable (s : String) : Prop where
  nonempty : s.toList ≠ []
  trimmed : trim s.toList = s.toList
  arrowless : ¬['-', '>'] <:+: s.toList

/-- A name that can be told from a table with a column. -/
structure Plain (name : String) : Prop extends Recordable name where
  dotless : '.' ∉ name.toList

instance (name : String) : Decidable (Plain name) :=
  decidable_of_iff
    ((name.toList ≠ [] ∧ trim name.toList = name.toList ∧ ¬['-', '>'] <:+: name.toList) ∧
      '.' ∉ name.toList)
    ⟨fun ⟨⟨hn, ht, ha⟩, hd⟩ => ⟨⟨hn, ht, ha⟩, hd⟩, fun ⟨⟨hn, ht, ha⟩, hd⟩ => ⟨⟨hn, ht, ha⟩, hd⟩⟩

namespace Key

/-- How a key is written in an entry. -/
def label : Key → String
  | .single name => name
  | .scoped owner name => owner ++ "." ++ name

/-- A key of plain names. -/
def IsPlain : Key → Prop
  | .single name => Plain name
  | .scoped owner name => Plain owner ∧ Plain name

variable {k k' : Key}

theorem toList_label (owner name : String) :
    (Key.scoped owner name).label.toList = owner.toList ++ '.' :: name.toList := by
  simp [label]

/-- **A label tells its key.** -/
theorem label_inj (h : k.IsPlain) (h' : k'.IsPlain) (e : k.label = k'.label) : k = k' := by
  have e := congrArg String.toList e
  rcases k with n | ⟨o, n⟩ <;> rcases k' with n' | ⟨o', n'⟩
  · exact congrArg _ (String.toList_inj.1 e)
  · rw [toList_label] at e
    have hdot : '.' ∈ n.toList := e.symm ▸ by simp
    exact absurd hdot (Plain.dotless h)
  · rw [toList_label] at e
    have hdot : '.' ∈ n'.toList := e ▸ by simp
    exact absurd hdot (Plain.dotless h')
  · rw [toList_label, toList_label] at e
    obtain ⟨ho, -, hn⟩ := (List.append_cons_inj_of_notMem h.1.dotless h.2.dotless).1 e
    rw [String.toList_inj.1 ho, String.toList_inj.1 hn]

theorem IsPlain.recordable (h : k.IsPlain) : Recordable k.label := by
  rcases k with n | ⟨o, n⟩
  · exact Plain.toRecordable h
  · refine ⟨?_, ?_, ?_⟩ <;> rw [toList_label]
    · simp
    · have ht := trim_append_of_trimmed ['.'] h.1.trimmed h.2.trimmed h.1.nonempty h.2.nonempty
      rwa [List.append_assoc] at ht
    · exact fun ha => (arrow_infix_of_dot ha).elim h.1.arrowless h.2.arrowless

end Key

/-! ## Reading entries -/

namespace RenameTable

theorem parsePair?_entry {old new : String} (ho : Recordable old) (hn : Recordable new) :
    parsePair? (old ++ "->" ++ new) = some (old, new) := by
  have hcut : cutAt ['-', '>'] (old ++ "->" ++ new).toList = some (old.toList, new.toList) := by
    rw [String.toList_append, String.toList_append]
    exact cutAt_arrow ho.arrowless
  rw [parsePair?, hcut, Option.bind_some]
  simp only
  rw [ho.trimmed, hn.trimmed,
    if_neg (not_or.2 ⟨ho.nonempty, hn.nonempty⟩), String.ofList_toList, String.ofList_toList]

theorem entryFaults_eq_nil : ∀ {entries : List String} (i : Nat),
    (∀ e ∈ entries, (parsePair? e).isSome = true) → entryFaults i entries = []
  | [], _, _ => rfl
  | e :: entries, i, h => by
    rw [entryFaults, if_pos (h e (List.mem_cons_self ..)),
      entryFaults_eq_nil (i + 1) fun e' he' => h e' (List.mem_cons_of_mem _ he')]
    rfl

/-- **Entries give back the renames that they record.** -/
theorem ofEntries_entries {t : RenameTable}
    (h : ∀ p ∈ t.pairs, Recordable p.1 ∧ Recordable p.2) : ofEntries t.entries = .ok t := by
  have hparse : ∀ p ∈ t.pairs, parsePair? (p.1 ++ "->" ++ p.2) = some p := fun p hp =>
    parsePair?_entry (h p hp).1 (h p hp).2
  have hfaults : entryFaults 0 t.entries = [] := entryFaults_eq_nil 0 fun e he => by
    obtain ⟨p, hp, rfl⟩ := List.mem_map.1 he
    exact Option.isSome_iff_exists.2 ⟨p, hparse p hp⟩
  have hpairs : t.entries.filterMap parsePair? = t.pairs := by
    rw [entries, List.filterMap_map]
    exact (List.filterMap_congr hparse).trans (List.filterMap_some ..)
  rw [ofEntries, hfaults, hpairs]

end RenameTable

end SchemaEvolution
