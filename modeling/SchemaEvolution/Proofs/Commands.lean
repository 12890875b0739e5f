import Mathlib.Data.List.Basic
import SchemaEvolution.Plan.Renderer

/-!
# What a text says

The texts of ten kinds of statements are made of keywords and names alone. What such a text says is
a `Command`: its operation with every name, list of names, sort of constraint and action in it. The
rest of the statement, such as the type of a dropped column, is not shown.

**Theorem (`Statement.told_apart`).** Two of these statements have one text iff they have one kind
and one command. No name, whatever characters it has, makes a text say something else.

**A name ends where it seems to end.** It stands between backticks, and its own backticks are
doubled. So if no backtick follows the closing one, both the name and what follows it are
determined by the text (`Identifier.quote_append_inj`). The same holds of names with commas between
them before a closing parenthesis (`identifiers_append_inj`), even if there are none. Keywords do
the rest: no keyword with which a command goes on begins like another one.
-/

namespace SchemaEvolution

open Sql

/-! ## Names -/

namespace Sql.Identifier

variable {a b r s : List Char}

theorem escape_backtick (cs : List Char) :
    escape ('\x60' :: cs) = '\x60' :: '\x60' :: escape cs := rfl

theorem escape_cons {c : Char} (h : c ≠ '\x60') (cs : List Char) :
    escape (c :: cs) = c :: escape cs := by
  simp [escape, h]

/-- A backtick that is not doubled closes the name. -/
theorem eq_nil_of_closed (hs : s.head? ≠ some '\x60') (h : escape a ++ '\x60' :: r = '\x60' :: s) :
    a = [] := by
  cases a with
  | nil => rfl
  | cons c a =>
    by_cases hc : c = '\x60'
    · subst hc
      rw [escape_backtick] at h
      have hdoubled : '\x60' :: (escape a ++ '\x60' :: r) = s := (List.cons.inj h).2
      exact absurd (by rw [← hdoubled]; rfl) hs
    · rw [escape_cons hc] at h
      exact absurd (List.cons.inj h).1 hc

theorem escape_append_inj (hr : r.head? ≠ some '\x60') (hs : s.head? ≠ some '\x60')
    (h : escape a ++ '\x60' :: r = escape b ++ '\x60' :: s) : a = b ∧ r = s := by
  induction a generalizing b with
  | nil =>
    obtain rfl := eq_nil_of_closed hr h.symm
    exact ⟨rfl, (List.cons.inj h).2⟩
  | cons c a ih =>
    cases b with
    | nil => exact absurd (eq_nil_of_closed hs h) nofun
    | cons d b =>
      by_cases hc : c = '\x60' <;> by_cases hd : d = '\x60'
      · subst hc hd
        rw [escape_backtick, escape_backtick] at h
        obtain ⟨rfl, hrest⟩ := ih (List.cons.inj (List.cons.inj h).2).2
        exact ⟨rfl, hrest⟩
      · subst hc
        rw [escape_backtick, escape_cons hd] at h
        exact absurd (List.cons.inj h).1.symm hd
      · subst hd
        rw [escape_backtick, escape_cons hc] at h
        exact absurd (List.cons.inj h).1 hc
      · rw [escape_cons hc, escape_cons hd] at h
        obtain ⟨rfl, rest⟩ := List.cons.inj h
        obtain ⟨rfl, hrest⟩ := ih rest
        exact ⟨rfl, hrest⟩

/-- **A quoted name is told from what follows it**, unless that begins with a backtick. -/
theorem quote_append_inj (hr : r.head? ≠ some '\x60') (hs : s.head? ≠ some '\x60')
    (h : quote a ++ r = quote b ++ s) : a = b ∧ r = s := by
  rw [quote, quote, List.append_assoc, List.append_assoc] at h
  exact escape_append_inj hr hs (List.cons.inj h).2

end Sql.Identifier

theorem toList_identifier (name : String) :
    (identifier name).toList = Identifier.quote name.toList :=
  String.toList_ofList

section

variable {m n : String} {r s : List Char}

theorem identifier_append_inj (hr : r.head? ≠ some '\x60') (hs : s.head? ≠ some '\x60')
    (h : (identifier m).toList ++ r = (identifier n).toList ++ s) : m = n ∧ r = s := by
  rw [toList_identifier, toList_identifier] at h
  obtain ⟨hname, hrest⟩ := Identifier.quote_append_inj hr hs h
  exact ⟨String.toList_inj.1 hname, hrest⟩

end

/-! ## Lists of names -/

/-- The names after the first one, each behind a comma. -/
def furtherNames (names : List String) : List Char :=
  names.flatMap fun name => ',' :: (identifier name).toList

theorem furtherNames_cons (name : String) (names : List String) :
    furtherNames (name :: names) = ',' :: (identifier name).toList ++ furtherNames names :=
  List.flatMap_cons

theorem toList_identifiers_cons (name : String) (names : List String) :
    (identifiers (name :: names)).toList = (identifier name).toList ++ furtherNames names := by
  induction names generalizing name with
  | nil => simp [identifiers, commaSeparated, furtherNames]
  | cons next names ih =>
    have hcomma : identifiers (name :: next :: names) =
        identifier name ++ "," ++ identifiers (next :: names) := String.intercalate_cons_cons
    simp [hcomma, ih, furtherNames_cons]

section

variable {ms ns : List String} {r s : List Char}

theorem head?_furtherNames (hr : r.head? = some ')') (ns : List String) :
    (furtherNames ns ++ r).head? ≠ some '\x60' := by
  cases ns <;> simp [furtherNames, hr]

theorem furtherNames_append_inj (hr : r.head? = some ')') (hs : s.head? = some ')')
    (h : furtherNames ms ++ r = furtherNames ns ++ s) : ms = ns ∧ r = s := by
  induction ms generalizing ns with
  | nil =>
    cases ns with
    | nil => exact ⟨rfl, h⟩
    | cons n ns =>
      obtain rfl : r = ',' :: (identifier n).toList ++ furtherNames ns ++ s := h
      simp at hr
  | cons m ms ih =>
    cases ns with
    | nil =>
      obtain rfl : ',' :: (identifier m).toList ++ furtherNames ms ++ r = s := h
      simp at hs
    | cons n ns =>
      rw [furtherNames_cons, furtherNames_cons, List.append_assoc, List.append_assoc] at h
      obtain ⟨rfl, hrest⟩ := identifier_append_inj (head?_furtherNames hr ms)
        (head?_furtherNames hs ns) (List.cons.inj h).2
      obtain ⟨rfl, hend⟩ := ih hrest
      exact ⟨rfl, hend⟩

/-- **Names before a closing parenthesis are told from what follows it**, and no names from one
empty name. -/
theorem identifiers_append_inj (hr : r.head? = some ')') (hs : s.head? = some ')')
    (h : (identifiers ms).toList ++ r = (identifiers ns).toList ++ s) : ms = ns ∧ r = s := by
  have hnil : (identifiers []).toList = [] := rfl
  cases ms with
  | nil =>
    cases ns with
    | nil => exact ⟨rfl, h⟩
    | cons n ns =>
      rw [hnil, toList_identifiers_cons, toList_identifier] at h
      obtain rfl : r = '\x60' :: _ := h
      simp at hr
  | cons m ms =>
    cases ns with
    | nil =>
      rw [hnil, toList_identifiers_cons, toList_identifier] at h
      obtain rfl : '\x60' :: _ = s := h
      simp at hs
    | cons n ns =>
      rw [toList_identifiers_cons, toList_identifiers_cons, List.append_assoc,
        List.append_assoc] at h
      obtain ⟨rfl, hrest⟩ := identifier_append_inj (head?_furtherNames hr ms)
        (head?_furtherNames hs ns) h
      obtain ⟨rfl, hend⟩ := furtherNames_append_inj hr hs hrest
      exact ⟨rfl, hend⟩

end

/-! ## Keywords -/

/-- No text of a family begins like another one. -/
def PrefixFree {α : Type} (text : α → String) : Prop :=
  ∀ a b, (text a).toList <+: (text b).toList → a = b

theorem PrefixFree.append_inj {α : Type} {text : α → String} (h : PrefixFree text) {a b : α}
    {r s : List Char} (he : (text a).toList ++ r = (text b).toList ++ s) : a = b ∧ r = s := by
  obtain rfl : a = b := by
    rcases List.prefix_or_prefix_of_prefix ⟨r, he⟩ ⟨s, rfl⟩ with hab | hba
    · exact h a b hab
    · exact (h b a hba).symm
  exact ⟨rfl, List.append_cancel_left he⟩

/-- Texts that begin with keywords are told apart by these and by what follows them. -/
theorem PrefixFree.injective {α β : Type} {keywords : β → String} (h : PrefixFree keywords)
    {verb : α → β} {arguments : α → String}
    (harguments : ∀ a b, verb a = verb b → (arguments a).toList = (arguments b).toList → a = b) :
    Function.Injective fun a => keywords (verb a) ++ arguments a := by
  intro a b hab
  have htext : (keywords (verb a)).toList ++ (arguments a).toList =
      (keywords (verb b)).toList ++ (arguments b).toList := by
    simpa using congrArg String.toList hab
  obtain ⟨hverb, hrest⟩ := h.append_inj htext
  exact harguments a b hverb hrest

theorem prefixFree_actions : PrefixFree (Word.text (α := ReferentialAction)) := by
  intro a b
  cases a <;> cases b <;> decide

/-! ## Changes of a table -/

/-- What the text of a change of a table says. -/
inductive TableChange where
  | dropColumn (column : String)
  | renameColumn (old new : String)
  | addForeignKey (name : String) (columns : List String) (target : String)
      (targetColumns : List String) (onDelete onUpdate : ReferentialAction)
  | dropConstraint (sort : ConstraintSort) (name : String)
  | addPrimaryKey (columns : List String)
  | dropPrimaryKey
deriving DecidableEq

namespace TableChange

/-- What a change does. -/
inductive Verb where
  | dropColumn
  | renameColumn
  | addForeignKey
  | dropConstraint (sort : ConstraintSort)
  | addPrimaryKey
  | dropPrimaryKey
deriving DecidableEq

def Verb.keywords : Verb → String
  | .dropColumn => "DROP COLUMN "
  | .renameColumn => "RENAME COLUMN "
  | .addForeignKey => "ADD CONSTRAINT "
  | .dropConstraint sort => "DROP " ++ sort.keyword ++ " "
  | .addPrimaryKey => "ADD PRIMARY KEY("
  | .dropPrimaryKey => "DROP PRIMARY KEY"

theorem prefixFree_keywords : PrefixFree Verb.keywords := by
  rintro (_ | _ | _ | (_ | _) | _ | _) (_ | _ | _ | (_ | _) | _ | _) <;> decide

def verb : TableChange → Verb
  | .dropColumn _ => .dropColumn
  | .renameColumn .. => .renameColumn
  | .addForeignKey .. => .addForeignKey
  | .dropConstraint sort _ => .dropConstraint sort
  | .addPrimaryKey _ => .addPrimaryKey
  | .dropPrimaryKey => .dropPrimaryKey

/-- What follows the keywords of a change, to the end of the statement. -/
def arguments : TableChange → String
  | .dropColumn c => identifier c ++ ";"
  | .renameColumn old new => identifier old ++ " TO " ++ identifier new ++ ";"
  | .addForeignKey n columns target targetColumns onDelete onUpdate =>
    identifier n ++ " FOREIGN KEY (" ++ identifiers columns ++ ") REFERENCES " ++
      identifier target ++ "(" ++ identifiers targetColumns ++ ") ON DELETE " ++
      Word.text onDelete ++ " ON UPDATE " ++ Word.text onUpdate ++ ";"
  | .dropConstraint _ n => identifier n ++ ";"
  | .addPrimaryKey columns => identifiers columns ++ ")" ++ ";"
  | .dropPrimaryKey => ";"

/-- The text of a change, to the end of the statement. -/
def sql (c : TableChange) : String :=
  c.verb.keywords ++ c.arguments

theorem sql_injective : Function.Injective sql := by
  refine prefixFree_keywords.injective fun c d hverb h => ?_
  cases c <;> cases d <;> cases hverb <;>
    simp only [arguments, String.toList_append, List.append_assoc] at h
  case dropColumn =>
    obtain ⟨rfl, -⟩ := identifier_append_inj (by simp) (by simp) h
    rfl
  case renameColumn =>
    obtain ⟨rfl, hto⟩ := identifier_append_inj (by simp) (by simp) h
    obtain ⟨rfl, -⟩ := identifier_append_inj (by simp) (by simp) (List.append_cancel_left hto)
    rfl
  case addForeignKey =>
    obtain ⟨rfl, hkey⟩ := identifier_append_inj (by simp) (by simp) h
    obtain ⟨rfl, hreferences⟩ :=
      identifiers_append_inj (by simp) (by simp) (List.append_cancel_left hkey)
    obtain ⟨rfl, htarget⟩ :=
      identifier_append_inj (by simp) (by simp) (List.append_cancel_left hreferences)
    obtain ⟨rfl, hdelete⟩ :=
      identifiers_append_inj (by simp) (by simp) (List.append_cancel_left htarget)
    obtain ⟨rfl, hupdate⟩ := prefixFree_actions.append_inj (List.append_cancel_left hdelete)
    obtain ⟨rfl, -⟩ := prefixFree_actions.append_inj (List.append_cancel_left hupdate)
    rfl
  case dropConstraint =>
    obtain ⟨rfl, -⟩ := identifier_append_inj (by simp) (by simp) h
    rfl
  case addPrimaryKey =>
    obtain ⟨rfl, -⟩ := identifiers_append_inj (by simp) (by simp) h
    rfl
  case dropPrimaryKey => rfl

end TableChange

/-! ## Commands -/

/-- What the text of a statement says. -/
inductive Command where
  | dropTable (table : String)
  | renameTable (old new : String)
  | dropIndex (name table : String)
  | dropView (view : String)
  | alterTable (table : String) (change : TableChange)
deriving DecidableEq

namespace Command

/-- What a command does. -/
inductive Verb where
  | dropTable
  | renameTable
  | dropIndex
  | dropView
  | alterTable
deriving DecidableEq

def Verb.keywords : Verb → String
  | .dropTable => "DROP TABLE "
  | .renameTable => "RENAME TABLE "
  | .dropIndex => "DROP INDEX "
  | .dropView => "DROP VIEW "
  | .alterTable => "ALTER TABLE "

theorem prefixFree_keywords : PrefixFree Verb.keywords := by
  intro a b
  cases a <;> cases b <;> decide

def verb : Command → Verb
  | .dropTable _ => .dropTable
  | .renameTable .. => .renameTable
  | .dropIndex .. => .dropIndex
  | .dropView _ => .dropView
  | .alterTable .. => .alterTable

/-- What follows the keywords of a command. -/
def arguments : Command → String
  | .dropTable t => identifier t ++ ";"
  | .renameTable old new => identifier old ++ " TO " ++ identifier new ++ ";"
  | .dropIndex n t => identifier n ++ " ON " ++ identifier t ++ ";"
  | .dropView v => identifier v ++ ";"
  | .alterTable t change => identifier t ++ " " ++ change.sql

/-- The text of a command. -/
def sql (c : Command) : String :=
  c.verb.keywords ++ c.arguments

/-- **A text says one command.** -/
theorem sql_injective : Function.Injective sql := by
  refine prefixFree_keywords.injective fun c d hverb h => ?_
  cases c <;> cases d <;> cases hverb <;>
    simp only [arguments, String.toList_append, List.append_assoc] at h
  case dropTable =>
    obtain ⟨rfl, -⟩ := identifier_append_inj (by simp) (by simp) h
    rfl
  case renameTable =>
    obtain ⟨rfl, hto⟩ := identifier_append_inj (by simp) (by simp) h
    obtain ⟨rfl, -⟩ := identifier_append_inj (by simp) (by simp) (List.append_cancel_left hto)
    rfl
  case dropIndex =>
    obtain ⟨rfl, hon⟩ := identifier_append_inj (by simp) (by simp) h
    obtain ⟨rfl, -⟩ := identifier_append_inj (by simp) (by simp) (List.append_cancel_left hon)
    rfl
  case dropView =>
    obtain ⟨rfl, -⟩ := identifier_append_inj (by simp) (by simp) h
    rfl
  case alterTable =>
    obtain ⟨rfl, hchange⟩ := identifier_append_inj (by simp) (by simp) h
    have hsql := String.toList_inj.1 (List.append_cancel_left hchange)
    obtain rfl := TableChange.sql_injective hsql
    rfl

def kind : Command → StatementKind
  | .dropTable _ => .dropTable
  | .renameTable .. => .renameTable
  | .dropIndex .. => .dropIndex
  | .dropView _ => .dropView
  | .alterTable _ (.dropColumn _) => .dropColumn
  | .alterTable _ (.renameColumn ..) => .renameColumn
  | .alterTable _ (.addForeignKey ..) => .createForeignKey
  | .alterTable _ (.dropConstraint ..) => .dropConstraint
  | .alterTable _ (.addPrimaryKey _) => .createPrimaryKey
  | .alterTable _ .dropPrimaryKey => .dropPrimaryKey

end Command

/-! ## Statements -/

-- Definitions made of many texts are opened by these equations: `simp` derives its own slowly.
theorem renameTable_eq (old new : String) :
    renameTable old new = "RENAME TABLE " ++ identifier old ++ " TO " ++ identifier new ++ ";" :=
  rfl

theorem alterTable_eq (table change : String) :
    alterTable table change = "ALTER TABLE " ++ identifier table ++ " " ++ change ++ ";" := rfl

theorem dropColumn_eq (c : Column) :
    dropColumn c = alterTable c.table ("DROP COLUMN " ++ identifier c.name) := rfl

theorem ForeignKey.clause_eq (k : ForeignKey) :
    k.clause = "CONSTRAINT " ++ identifier k.name ++ " FOREIGN KEY (" ++ identifiers k.columns ++
      ") REFERENCES " ++ identifier k.target ++ "(" ++ identifiers k.targetColumns ++
      ") ON DELETE " ++ Word.text k.onDelete ++ " ON UPDATE " ++ Word.text k.onUpdate := rfl

theorem add_constraint (rest : String) :
    "ADD " ++ ("CONSTRAINT " ++ rest) = "ADD CONSTRAINT " ++ rest := by
  rw [← String.append_assoc, show "ADD " ++ "CONSTRAINT " = "ADD CONSTRAINT " by decide]

/-- The kinds whose texts are made of keywords and names alone. -/
def StatementKind.commands : List StatementKind :=
  [.dropTable, .renameTable, .dropColumn, .renameColumn, .dropIndex, .createForeignKey,
    .dropConstraint, .createPrimaryKey, .dropPrimaryKey, .dropView]

namespace Statement

/-- What the text of a statement says, if it is of one of these kinds. -/
def command? : Statement → Option Command
  | .dropTable t => some (.dropTable t)
  | .renameTable old new => some (.renameTable old new)
  | .dropColumn c => some (.alterTable c.table (.dropColumn c.name))
  | .renameColumn t old new => some (.alterTable t (.renameColumn old new))
  | .dropIndex i => some (.dropIndex i.name i.table)
  | .createForeignKey k =>
    some (.alterTable k.table
      (.addForeignKey k.name k.columns k.target k.targetColumns k.onDelete k.onUpdate))
  | .dropConstraint t n sort => some (.alterTable t (.dropConstraint sort n))
  | .createPrimaryKey k => some (.alterTable k.table (.addPrimaryKey k.columns))
  | .dropPrimaryKey k => some (.alterTable k.table .dropPrimaryKey)
  | .dropView v => some (.dropView v)
  | _ => none

theorem isSome_command? {s : Statement} (h : s.kind ∈ StatementKind.commands) :
    s.command?.isSome := by
  cases s <;> simp [command?, kind, StatementKind.commands] at h ⊢

theorem kind_eq_of_command? {s : Statement} {c : Command} (h : s.command? = some c) :
    s.kind = c.kind := by
  cases s <;> cases h <;> rfl

theorem render?_eq_sql {s : Statement} {c : Command} (h : s.command? = some c) :
    Renderer.mysql.render? s = some [c.sql] := by
  cases s <;> cases h
  all_goals
    refine congrArg (fun text => some [text]) ?_
    simp only [renameTable_eq, dropColumn_eq, alterTable_eq, ForeignKey.clause_eq, add_constraint,
      Command.sql, Command.Verb.keywords, Command.verb, Command.arguments, TableChange.sql,
      TableChange.Verb.keywords, TableChange.verb, TableChange.arguments, String.append_assoc]

/-- **Statements made of keywords and names are told apart by their texts.** Each has one text, and
two of them have the same one iff they are of one kind and say the same. -/
theorem told_apart {s t : Statement} (hs : s.kind ∈ StatementKind.commands)
    (ht : t.kind ∈ StatementKind.commands) :
    ∃ x y, Renderer.mysql.render? s = some [x] ∧ Renderer.mysql.render? t = some [y] ∧
      (x = y ↔ s.kind = t.kind ∧ s.command? = t.command?) := by
  obtain ⟨c, hc⟩ := Option.isSome_iff_exists.1 (isSome_command? hs)
  obtain ⟨d, hd⟩ := Option.isSome_iff_exists.1 (isSome_command? ht)
  refine ⟨c.sql, d.sql, render?_eq_sql hc, render?_eq_sql hd, fun hsql => ?_, fun ⟨_, hsame⟩ => ?_⟩
  · obtain rfl := Command.sql_injective hsql
    exact ⟨(kind_eq_of_command? hc).trans (kind_eq_of_command? hd).symm, hc.trans hd.symm⟩
  · rw [hc, hd, Option.some.injEq] at hsame
    rw [hsame]

/-- A name that holds what stands between two names is not two names. -/
theorem told_apart_columns :
    ∃ x y, Renderer.mysql.render? (.createPrimaryKey
        { table := "t;", name := "", columns := ["a\x60,\x60b"] }) = some [x] ∧
      Renderer.mysql.render? (.createPrimaryKey
        { table := "t;", name := "", columns := ["a", "b"] }) = some [y] ∧
      x ≠ y := by
  obtain ⟨x, y, hx, hy, hsame⟩ := told_apart
    (s := .createPrimaryKey { table := "t;", name := "", columns := ["a\x60,\x60b"] })
    (t := .createPrimaryKey { table := "t;", name := "", columns := ["a", "b"] })
    (by decide) (by decide)
  exact ⟨x, y, hx, hy, fun hxy => absurd (hsame.1 hxy).2 (by decide)⟩

end Statement

end SchemaEvolution
