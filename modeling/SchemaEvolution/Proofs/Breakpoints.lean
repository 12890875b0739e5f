import SchemaEvolution.Proofs.Entries
import SchemaEvolution.Proofs.ReachedTarget
import SchemaEvolution.Proofs.Rendering

/-!
# Breakpoints

The text of a migration with breakpoints has a line of its own between two statements. A tool that
runs it splits the text at these lines.

**Theorem (`Migration.text_splits`).** Splitting gives back the statements, whatever they are, as
long as none has the breakpoint within. So the text of a migration determines its SQL.

The separator is the breakpoint between two line feeds, and the breakpoint has none. Where it is
found in the text it therefore lies between two line feeds or within a statement; no part of it can
be borrowed from a statement (`infix_of_prefix_framed`). The first separator is the one behind the
first statement (`cutAt_framed`), and what follows it is the text of the other statements.

A text without statements is empty, but so is that of one empty statement. No migration has an
empty statement (`Renderer.sql_ne_empty`).
-/

namespace SchemaEvolution

open Text

/-! ## Cutting at a line -/

namespace Text

variable {marker s rest : List Char}

/-- A line with a line feed in front and behind. -/
def framed (marker : List Char) : List Char :=
  '\n' :: (marker ++ ['\n'])

theorem framed_ne_nil : framed marker ≠ [] :=
  List.cons_ne_nil _ _

/-- A line that begins in a text ends there, if it has no line feed and one follows the text. -/
theorem prefix_of_prefix_newline (hmarker : '\n' ∉ marker)
    (h : marker <+: s ++ '\n' :: rest) : marker <+: s := by
  rcases List.prefix_or_prefix_of_prefix h (List.prefix_append s _) with hs | ⟨more, rfl⟩
  · exact hs
  · -- What goes beyond the text begins with the line feed.
    cases more with
    | nil => exact ⟨[], by simp⟩
    | cons c more =>
      obtain ⟨rfl, -⟩ := List.cons_prefix_cons.1 ((List.prefix_append_right_inj s).1 h)
      exact absurd (by simp) hmarker

/-- A separator that begins in a text before another one has its line in the text. -/
theorem infix_of_prefix_framed (hmarker : '\n' ∉ marker) {c : Char}
    (h : framed marker <+: c :: s ++ framed marker ++ rest) : marker <:+: c :: s := by
  obtain ⟨-, hline⟩ := List.cons_prefix_cons.1 (show '\n' :: (marker ++ ['\n']) <+:
    c :: (s ++ '\n' :: (marker ++ ['\n'] ++ rest)) by simpa [framed] using h)
  exact (prefix_of_prefix_newline hmarker ((List.prefix_append ..).trans hline)).isInfix.trans
    (List.suffix_cons c s).isInfix

/-- **The first separator is the one behind the text**, if the text has no such line. -/
theorem cutAt_framed (hmarker : '\n' ∉ marker) (hs : ¬marker <:+: s) :
    cutAt (framed marker) (s ++ framed marker ++ rest) = some (s, rest) := by
  induction s with
  | nil =>
    have hstart : dropStart? (framed marker) ('\n' :: (marker ++ ['\n'] ++ rest)) = some rest :=
      dropStart?_append (framed marker) rest
    show cutAt (framed marker) ('\n' :: (marker ++ ['\n'] ++ rest)) = _
    rw [cutAt, hstart]
  | cons c s ih =>
    have hstart : dropStart? (framed marker) (c :: (s ++ framed marker ++ rest)) = none :=
      dropStart?_eq_none_iff.2 fun h => hs (infix_of_prefix_framed hmarker h)
    have hrest : ¬marker <:+: s := fun h => hs (h.trans (List.suffix_cons c s).isInfix)
    rw [List.cons_append, List.cons_append, cutAt, hstart, ih hrest]
    rfl

theorem cutAt_eq_none {sep : List Char} (hsep : sep ≠ []) (h : ¬sep <:+: s) :
    cutAt sep s = none := by
  induction s with
  | nil =>
    have hstart : dropStart? sep [] = none :=
      dropStart?_eq_none_iff.2 fun hp => hsep (List.prefix_nil.1 hp)
    rw [cutAt, hstart, Option.map_none]
  | cons c s ih =>
    rw [List.infix_cons_iff, not_or] at h
    rw [cutAt, dropStart?_eq_none_iff.2 h.1, ih h.2, Option.map_none]

theorem marker_infix_framed (marker : List Char) : marker <:+: framed marker :=
  ⟨['\n'], ['\n'], rfl⟩

/-- **Texts with separators between them are what splitting gives.** -/
theorem splitAt_intercalate_framed (hmarker : '\n' ∉ marker) {texts : List (List Char)}
    (hne : texts ≠ []) (h : ∀ s ∈ texts, ¬marker <:+: s) :
    splitAt (framed marker) framed_ne_nil ((framed marker).intercalate texts) = texts := by
  induction texts with
  | nil => exact absurd rfl hne
  | cons s texts ih =>
    have hs : ¬marker <:+: s := h s (List.mem_cons_self ..)
    cases texts with
    | nil =>
      rw [List.intercalate_singleton]
      exact splitAt_of_none _
        (cutAt_eq_none framed_ne_nil fun hi => hs ((marker_infix_framed marker).trans hi))
    | cons t texts =>
      rw [List.intercalate_cons_cons, splitAt_of_some _ (cutAt_framed hmarker hs),
        ih (List.cons_ne_nil _ _) fun u hu => h u (List.mem_cons_of_mem _ hu)]

end Text

/-! ## The text of a migration -/

/-- The statements in the text of a migration with breakpoints. -/
def statementsOf (text : String) : List String :=
  (splitAt (framed breakpoint.toList) framed_ne_nil text.toList).map String.ofList

theorem toList_migrationText (sql : List String) : (migrationText true sql).toList =
    (framed breakpoint.toList).intercalate (sql.map String.toList) := by
  rw [migrationText, if_pos rfl, String.toList_intercalate]
  rfl

theorem statementsOf_migrationText {sql : List String} (hne : sql ≠ [])
    (h : ∀ s ∈ sql, ¬breakpoint.toList <:+: s.toList) :
    statementsOf (migrationText true sql) = sql := by
  have hmarker : '\n' ∉ breakpoint.toList := by decide
  have htexts : ∀ s ∈ sql.map String.toList, ¬breakpoint.toList <:+: s := by simpa using h
  rw [statementsOf, toList_migrationText,
    splitAt_intercalate_framed hmarker (by simpa using hne) htexts, List.map_map]
  exact (List.map_congr_left fun s _ => String.ofList_toList).trans sql.map_id

namespace Renderer

theorem ne_empty_of_render? {s : Statement} {sql : List String} (h : mysql.render? s = some sql) :
    ∀ text ∈ sql, text ≠ "" := by
  have hend {text start : String} (htext : text = start ++ ";" ∨ text = start ++ "\n);") :
      text ≠ "" := by
    rcases htext with rfl | rfl <;> simp
  cases s
  case createTable => cases h; exact List.forall_mem_singleton.2 (hend (.inr rfl))
  case recreateColumn =>
    cases h
    exact List.forall_mem_cons.2 ⟨hend (.inl rfl), List.forall_mem_singleton.2 (hend (.inl rfl))⟩
  all_goals cases h; exact List.forall_mem_singleton.2 (hend (.inl rfl))

theorem sql_ne_empty (ss : List Statement) : ∀ text ∈ (mysql.render ss).sql, text ≠ "" := by
  intro text htext
  rw [sql_render, List.mem_flatMap] at htext
  obtain ⟨p, hp, htext⟩ := htext
  exact ne_empty_of_render? (render?_of_mem_grouped hp) text htext

end Renderer

theorem migrationText_ne_empty {sql : List String} (hne : sql ≠ []) (h : ∀ s ∈ sql, s ≠ "") :
    migrationText true sql ≠ "" := by
  intro hempty
  cases sql with
  | nil => exact hne rfl
  | cons s sql =>
    have htext := congrArg String.toList hempty
    have hs : s.toList ≠ [] := fun he => h s (List.mem_cons_self ..) (String.toList_eq_nil_iff.1 he)
    cases sql with
    | nil => exact hs (by simpa [toList_migrationText] using htext)
    | cons t sql =>
      rw [toList_migrationText, List.map_cons, List.map_cons, List.intercalate_cons_cons,
        List.append_assoc] at htext
      exact hs (List.append_eq_nil_iff.1 htext).1

namespace Migration

/-- The SQL that the text of a migration with breakpoints holds. -/
def sqlOf (text : String) : List String :=
  if text = "" then [] else statementsOf text

theorem sqlOf_text {options : MigrationOptions} (hb : options.breakpoints = true) (s : Settled)
    (h : ∀ x ∈ (ofSettled options s).rendered.sql, ¬breakpoint.toList <:+: x.toList) :
    sqlOf (ofSettled options s).text = (ofSettled options s).rendered.sql := by
  have htext : (ofSettled options s).text =
      migrationText true (ofSettled options s).rendered.sql := by
    rw [← hb, ofSettled]
  rw [htext, sqlOf]
  by_cases hsql : (ofSettled options s).rendered.sql = []
  · rw [hsql]
    exact if_pos rfl
  · rw [if_neg (migrationText_ne_empty hsql (Renderer.sql_ne_empty _)),
      statementsOf_migrationText hsql h]

/-- **The text of a migration splits into its statements.** This holds of any statements without
the breakpoint within, so the text of a migration between catalogs determines its SQL. -/
theorem text_splits :
    (∀ sql : List String, sql ≠ [] → (∀ s ∈ sql, ¬breakpoint.toList <:+: s.toList) →
      statementsOf (migrationText true sql) = sql) ∧
    ∀ {σ : Type} {r : Resolver (StateM σ)} {options : MigrationOptions} {source target : Catalog}
      {a b : σ} {m : Migration}, options.breakpoints = true →
      Returns (between r options source target) a m b →
      (∀ s ∈ m.rendered.sql, ¬breakpoint.toList <:+: s.toList) → m.rendered.sql = sqlOf m.text := by
  refine ⟨fun sql hne h => statementsOf_migrationText hne h, fun hb hm h => ?_⟩
  obtain ⟨x, -, rfl⟩ := returns_between_iff.1 hm
  exact (sqlOf_text hb x h).symm

/-- Statements that lack one character of a breakpoint at an end, or are empty, and the SQL of a
table that is renamed. -/
theorem text_splits_of_dashes :
    let sql := ["a\n-", "", "-> statement-breakpoint", "\n"]
    let options : MigrationOptions := { breakpoints := true }
    (sql ≠ [] ∧ (∀ s ∈ sql, ¬breakpoint.toList <:+: s.toList) ∧
      statementsOf (migrationText true sql) = sql) ∧
    (Returns (between (RenameTable.resolver ⟨[("items", "entries")]⟩) options
        (chain "items" "int") (chain "entries" "bigint")) () (ofSettled options renamedChain) () ∧
      (∀ s ∈ (ofSettled options renamedChain).rendered.sql, ¬breakpoint.toList <:+: s.toList) ∧
      (ofSettled options renamedChain).rendered.sql =
        sqlOf (ofSettled options renamedChain).text) := by
  intro sql options
  have hne : sql ≠ [] := List.cons_ne_nil _ _
  have hsql : ∀ s ∈ sql, ¬breakpoint.toList <:+: s.toList := by decide
  have hrun := returns_between options returns_settle_renamedChain
  have hrendered : ∀ s ∈ (ofSettled options renamedChain).rendered.sql,
      ¬breakpoint.toList <:+: s.toList := by decide +kernel
  exact ⟨⟨hne, hsql, text_splits.1 sql hne hsql⟩, hrun, hrendered,
    text_splits.2 rfl hrun hrendered⟩

end Migration

end SchemaEvolution
