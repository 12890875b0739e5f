import Mathlib.Data.List.Forall2
import SchemaEvolution.Proofs.Prompting

/-!
# Lines that are no answer

A user who is asked may write lines that are no answer: words, or numbers of nothing on offer. They
are passed over, and the question is put again.

**Theorem (`Prompt.invalid_lines_harmless`).** Lines that are neither blank nor a number, wherever
they are inserted between the lines of a text, change the outcome of no call, however many calls
share the text. Each question reads a line, or finds none left and fails. If a call succeeds, the
renames that it adds to the known ones give created rows, in order, the deleted rows that stand
under the chosen numbers, among those that no earlier choice has taken.

**The first part compares two runs** (`Prompt.Deaf`): as long as the lines that are left differ only
in lines that are no answer, every question gets the same answer, and so do the lines left behind
it. The runs of a sequence follow from those of its parts.

**The second part follows one run.** What a question reads are lines that are no answer and one that
is (`Prompt.Reading.Answers`); the rows on offer at a question are those that the choice before has
left (`Prompt.Turns`). Both are found together along the created rows (`Prompt.converses_choose`).
-/

namespace SchemaEvolution

open Text

namespace Prompt

/-! ## Texts of lines -/

/-- Lines as a text, with a line feed behind each. -/
def textOf : List String → String
  | [] => ""
  | line :: lines => line ++ "\n" ++ textOf lines

theorem splitOn_textOf {lines : List String} (h : ∀ line ∈ lines, '\n' ∉ line.toList) :
    (textOf lines).toList.splitOn '\n' = lines.map String.toList ++ [[]] := by
  induction lines with
  | nil => rfl
  | cons line lines ih =>
    rw [List.forall_mem_cons] at h
    have htext : (textOf (line :: lines)).toList =
        line.toList ++ '\n' :: (textOf lines).toList := by simp [textOf]
    have hline : line.toList.splitOn '\n' = [line.toList] := List.splitOn_eq_singleton h.1
    rw [htext]
    calc (line.toList ++ '\n' :: (textOf lines).toList).splitOn '\n'
        = line.toList.splitOn '\n' ++ (textOf lines).toList.splitOn '\n' :=
          List.splitOnP_append_cons (p := (· == '\n')) _ _ (beq_self_eq_true '\n')
      _ = [line.toList] ++ (lines.map String.toList ++ [[]]) := by rw [hline, ih h.2]

theorem linesOf_textOf {lines : List String} (h : ∀ line ∈ lines, '\n' ∉ line.toList) :
    linesOf (textOf lines) = lines := by
  have hsplit : ((textOf lines).toList.splitOn '\n').map String.ofList = lines ++ [""] := by
    rw [splitOn_textOf h, List.map_append, List.map_map]
    exact congrArg (· ++ [""]) ((List.map_congr_left fun l _ => String.ofList_toList).trans
      lines.map_id)
  simp [linesOf, hsplit]

/-! ## Lines that are no answer -/

/-- A number as it is written: a plus sign if any, and digits; a word of a machine can hold it. -/
inductive Writes : List Char → ℕ → Prop
  | plain {ds : List Char} (hne : ds ≠ []) (hdigits : ∀ d ∈ ds, d.isDigit = true)
      (hsmall : digitsValue ds < Nat.pow 2 64) : Writes ds (digitsValue ds)
  | plus {ds : List Char} (hne : ds ≠ []) (hdigits : ∀ d ∈ ds, d.isDigit = true)
      (hsmall : digitsValue ds < Nat.pow 2 64) : Writes ('+' :: ds) (digitsValue ds)

/-- The number that digits write. -/
def digitsNumber? (ds : List Char) : Option ℕ :=
  if ds ≠ [] ∧ ds.all Char.isDigit ∧ digitsValue ds < Nat.pow 2 64 then some (digitsValue ds)
  else none

theorem digitsNumber?_eq_some_iff {ds : List Char} {n : ℕ} : digitsNumber? ds = some n ↔
    (ds ≠ [] ∧ (∀ d ∈ ds, d.isDigit = true) ∧ digitsValue ds < Nat.pow 2 64) ∧
      digitsValue ds = n := by
  rw [digitsNumber?, Option.ite_none_right_eq_some, List.all_eq_true, Option.some.injEq]

theorem number?_plus (ds : List Char) : number? ('+' :: ds) = digitsNumber? ds := rfl

theorem number?_eq_digitsNumber? {cs : List Char} (h : cs.head? ≠ some '+') :
    number? cs = digitsNumber? cs := by
  unfold number?
  dsimp only
  split
  next => exact absurd rfl h
  next => rfl

theorem number?_eq_some_iff {cs : List Char} {n : ℕ} : number? cs = some n ↔ Writes cs n := by
  constructor
  · intro h
    by_cases hplus : cs.head? = some '+'
    · obtain ⟨ds, rfl⟩ := List.head?_eq_some_iff.1 hplus
      rw [number?_plus, digitsNumber?_eq_some_iff] at h
      obtain ⟨⟨hne, hdigits, hsmall⟩, rfl⟩ := h
      exact .plus hne hdigits hsmall
    · rw [number?_eq_digitsNumber? hplus, digitsNumber?_eq_some_iff] at h
      obtain ⟨⟨hne, hdigits, hsmall⟩, rfl⟩ := h
      exact .plain hne hdigits hsmall
  · rintro (⟨hne, hdigits, hsmall⟩ | ⟨hne, hdigits, hsmall⟩)
    · have hplus : cs.head? ≠ some '+' := fun h =>
        absurd (hdigits '+' (List.mem_of_mem_head? h)) (by decide)
      rw [number?_eq_digitsNumber? hplus]
      exact digitsNumber?_eq_some_iff.2 ⟨⟨hne, hdigits, hsmall⟩, rfl⟩
    · exact digitsNumber?_eq_some_iff.2 ⟨⟨hne, hdigits, hsmall⟩, rfl⟩

/-- A line that is neither blank nor a number. -/
structure IsInvalid (line : String) : Prop where
  whole : '\n' ∉ line.toList
  nonblank : trim line.toList ≠ []
  unreadable : ∀ n, ¬Writes (trim line.toList) n

theorem number?_eq_none_iff {cs : List Char} : number? cs = none ↔ ∀ n, ¬Writes cs n := by
  simp only [Option.eq_none_iff_forall_ne_some, ne_eq, number?_eq_some_iff]

instance (line : String) : Decidable (IsInvalid line) :=
  decidable_of_iff
    ('\n' ∉ line.toList ∧ trim line.toList ≠ [] ∧ number? (trim line.toList) = none)
    ⟨fun ⟨hwhole, hnonblank, hnone⟩ => ⟨hwhole, hnonblank, number?_eq_none_iff.1 hnone⟩,
      fun h => ⟨h.whole, h.nonblank, number?_eq_none_iff.2 h.unreadable⟩⟩

theorem IsInvalid.answer?_eq_none {line : String} (h : IsInvalid line) (most : ℕ) :
    answer? most line = none := by
  simp [answer?, h.nonblank, number?_eq_none_iff.2 h.unreadable]

/-- The second lines are the first ones with lines inserted that are no answer. -/
inductive Padded : List String → List String → Prop
  | nil : Padded [] []
  | line {lines padded : List String} (line : String) (h : Padded lines padded) :
      Padded (line :: lines) (line :: padded)
  | invalid {lines padded : List String} {line : String} (hline : IsInvalid line)
      (h : Padded lines padded) : Padded lines (line :: padded)

theorem Padded.whole {lines padded : List String} (h : Padded lines padded)
    (hlines : ∀ line ∈ lines, '\n' ∉ line.toList) : ∀ line ∈ padded, '\n' ∉ line.toList := by
  induction h with
  | nil => exact hlines
  | line line _ ih =>
    rw [List.forall_mem_cons] at hlines ⊢
    exact ⟨hlines.1, ih hlines.2⟩
  | invalid hline _ ih => exact List.forall_mem_cons.2 ⟨hline.whole, ih hlines⟩

/-! ## Two runs -/

/-- Lines that are inserted and no answer change nothing: the result is the same, and what is left
differs in such lines only. -/
def Deaf {β : Type} (x : StateM (List String) β) : Prop :=
  ∀ lines padded, Padded lines padded → ∃ b rest rest',
    x.run lines = (b, rest) ∧ x.run padded = (b, rest') ∧ Padded rest rest'

section

variable {β γ : Type}

theorem deaf_pure (b : β) : Deaf (pure b) :=
  fun lines padded h => ⟨b, lines, padded, rfl, rfl, h⟩

theorem Deaf.bind {x : StateM (List String) β} {f : β → StateM (List String) γ} (hx : Deaf x)
    (hf : ∀ b, Deaf (f b)) : Deaf (x >>= f) := by
  intro lines padded h
  obtain ⟨b, left, left', hrun, hrun', hleft⟩ := hx lines padded h
  obtain ⟨c, rest, rest', hnext, hnext', hrest⟩ := hf b left left' hleft
  exact ⟨c, rest, rest', (run_bind_of hrun).trans hnext, (run_bind_of hrun').trans hnext', hrest⟩

/-- The next answer is the same, and so are the lines behind it but for lines that are none. -/
theorem Padded.nextAnswer? {lines padded : List String} (h : Padded lines padded) (most : ℕ) :
    (nextAnswer? most lines = none ∧ nextAnswer? most padded = none) ∨
      ∃ n rest rest', nextAnswer? most lines = some (n, rest) ∧
        nextAnswer? most padded = some (n, rest') ∧ Padded rest rest' := by
  induction h with
  | nil => exact .inl ⟨rfl, rfl⟩
  | @line lines padded line h ih =>
    cases hline : answer? most line with
    | some n =>
      exact .inr ⟨n, lines, padded, nextAnswer?_cons_of_some hline _,
        nextAnswer?_cons_of_some hline _, h⟩
    | none => rwa [nextAnswer?_cons_of_none hline, nextAnswer?_cons_of_none hline]
  | invalid hline _ ih => rwa [nextAnswer?_cons_of_none (hline.answer?_eq_none most)]

theorem deaf_fromLines (q : Question) : Deaf (fromLines q) := by
  intro lines padded h
  rcases h.nextAnswer? q.deleted.length with ⟨hnone, hnone'⟩ | ⟨n, rest, rest', hn, hn', hrest⟩
  · refine ⟨.error inputClosed, [], [], ?_, ?_, .nil⟩
    · show fromLines q lines = _
      rw [fromLines, hnone]
    · show fromLines q padded = _
      rw [fromLines, hnone']
  · refine ⟨.ok n, rest, rest', ?_, ?_, hrest⟩
    · show fromLines q lines = _
      rw [fromLines, hn]
    · show fromLines q padded = _
      rw [fromLines, hn']

variable {α : Type} {name : α → String} {what : String}

theorem deaf_choose : ∀ rows deleted : List α, Deaf (choose fromLines what name deleted rows)
  | [], _ => deaf_pure _
  | row :: rows, deleted => by
    rw [choose]
    split
    · exact deaf_pure _
    · refine (deaf_fromLines _).bind fun answer => ?_
      cases answer with
      | error reason => exact deaf_pure _
      | ok n =>
        dsimp only
        split
        · exact (deaf_choose rows _).bind fun _ => deaf_pure _
        · exact (deaf_choose rows _).bind fun _ => deaf_pure _

end

theorem deaf_answer (t : RenameTable) (q : Request) : Deaf ((resolver fromLines t).answer q) := by
  cases q with
  | tables o | columns _ o | views o => exact (deaf_choose _ _).bind fun _ => deaf_pure _

theorem deaf_exchanges (t : RenameTable) : ∀ qs : List Request,
    Deaf ((resolver fromLines t).exchanges qs)
  | [] => deaf_pure _
  | q :: qs => (deaf_answer t q).bind fun _ => (deaf_exchanges t qs).bind fun _ => deaf_pure _

/-! ## One question -/

/-- The lines that are read for a question answer it with a number on offer: the last one does, and
those before it are no answer. -/
def Reading.Answers (r : Reading) (n : ℕ) : Prop :=
  n ≤ r.question.deleted.length ∧ ∃ passed line, r.lines = passed ++ [line] ∧
    (∀ l ∈ passed, answer? r.question.deleted.length l = none) ∧
      answer? r.question.deleted.length line = some n

/-- None of the lines that are read for a question is an answer. -/
def Reading.Fails (r : Reading) : Prop :=
  ∀ l ∈ r.lines, answer? r.question.deleted.length l = none

theorem fromLines_of_answer {q : Question} {passed : List String} {line : String} {n : ℕ}
    (hpassed : ∀ l ∈ passed, answer? q.deleted.length l = none)
    (hline : answer? q.deleted.length line = some n) (rest : List String) :
    fromLines q (passed ++ line :: rest) = (.ok n, rest) := by
  rw [fromLines, nextAnswer?_append hpassed, nextAnswer?_cons_of_some hline]

theorem fromLines_of_none {q : Question} {lines : List String}
    (h : ∀ l ∈ lines, answer? q.deleted.length l = none) :
    fromLines q lines = (.error inputClosed, []) := by
  rw [fromLines, ← List.append_nil lines, nextAnswer?_append h]
  rfl

/-- What is noted of a question: the lines up to its answer, or all lines if none is one. -/
theorem run_noting (q : Question) (lines : List String) (readings : List Reading) :
    ∃ r : Reading, r.question = q ∧
      ((∃ n rest, r.Answers n ∧
          (noting q).run (lines, readings) = (.ok n, rest, readings ++ [r])) ∨
        r.Fails ∧ (noting q).run (lines, readings) =
          (.error inputClosed, [], readings ++ [r])) := by
  rcases exists_first_answer q.deleted.length lines with
    ⟨n, passed, line, rest, rfl, hpassed, hline⟩ | hlines
  · have hrun : fromLines q (passed ++ line :: rest) = (.ok n, rest) :=
      fromLines_of_answer hpassed hline rest
    refine ⟨⟨q, passed ++ [line]⟩, rfl, .inl ⟨n, rest,
      ⟨le_of_answer? hline, passed, line, rfl, hpassed, hline⟩, ?_⟩⟩
    show noting q (passed ++ line :: rest, readings) = _
    have htake : (passed ++ line :: rest).take ((passed ++ line :: rest).length - rest.length) =
        passed ++ [line] := by
      rw [List.append_cons, List.length_append, Nat.add_sub_cancel, List.take_left]
    simp only [noting, hrun, htake]
  · have hrun : fromLines q lines = (.error inputClosed, []) :=
      fromLines_of_none hlines
    refine ⟨⟨q, lines⟩, rfl, .inr ⟨hlines, ?_⟩⟩
    show noting q (lines, readings) = _
    simp only [noting, hrun, List.length_nil, Nat.sub_zero, List.take_length]

/-! ## Choices -/

/-- What was chosen for a created row, out of the deleted rows that no earlier choice has taken:
nothing, or the row under a number. -/
structure Choice (α : Type) where
  created : α
  unclaimed : List α
  number : ℕ

section

variable {α : Type}

namespace Choice

/-- The question that is put. -/
def question (what : String) (name : α → String) (c : Choice α) : Question :=
  ⟨what, name c.created, c.unclaimed.map name⟩

/-- The renaming that was chosen. -/
def renaming? (c : Choice α) : Option (Renaming α) :=
  match c.number with
  | 0 => none
  | n + 1 => c.unclaimed[n]?.map fun old => ⟨old, c.created⟩

/-- The deleted rows that are left. -/
def left (c : Choice α) : List α :=
  match c.number with
  | 0 => c.unclaimed
  | n + 1 => c.unclaimed.eraseIdx n

theorem shown {c : Choice α} {x : Renaming α} (h : c.renaming? = some x) (what : String)
    (name : α → String) : x.new = c.created ∧ x.old ∈ c.unclaimed ∧
      (c.question what name).lines[c.number + 1]? = some ("  " ++ toString c.number ++
        ") rename \x60" ++ name x.old ++ "\x60 -> \x60" ++ name x.new ++ "\x60") := by
  obtain ⟨created, unclaimed, _ | n⟩ := c
  · cases h
  · obtain ⟨old, hold, rfl⟩ := Option.map_eq_some_iff.1 h
    refine ⟨rfl, List.mem_of_getElem? hold, ?_⟩
    simp [question, Question.lines, hold]

end Choice

/-- Choices one after the other: what is on offer at each is what the one before has left. -/
inductive Turns : List α → List (Choice α) → List α → Prop
  | nil (deleted : List α) : Turns deleted [] deleted
  | cons {c : Choice α} {cs : List (Choice α)} {rest : List α}
      (hc : c.number ≤ c.unclaimed.length) (h : Turns c.left cs rest) :
      Turns c.unclaimed (c :: cs) rest

/-- The lines that are read for a question are those of a choice. -/
structure Asked (what : String) (name : α → String) (c : Choice α) (r : Reading) : Prop where
  question : r.question = c.question what name
  answers : r.Answers c.number

/-- What known renames leave over is settled by choices, for each created row in turn until no
deleted row is left. -/
structure Settles (known result : Resolution α) (choices : List (Choice α)) : Prop where
  turns : Turns known.deleted choices result.deleted
  rows : choices.map (·.created) <+: known.created
  complete : choices.map (·.created) = known.created ∨ result.deleted = []
  renamed : result.renamed = known.renamed ++ choices.filterMap Choice.renaming?
  created : result.created = (choices.filter (·.renaming?.isNone)).map (·.created) ++
    known.created.drop choices.length

/-- The questions of a call, the lines that are read for each, and what comes of the call. -/
inductive Converses (what : String) (name : α → String) (known : Resolution α) :
    Except String (Resolution α) → List Reading → List String → Prop
  | succeeds {result : Resolution α} {choices : List (Choice α)} {readings : List Reading}
      (rest : List String) (hsettles : Settles known result choices)
      (hasked : List.Forall₂ (Asked what name) choices readings) :
      Converses what name known (.ok result) readings rest
  /-- All lines are read, and the last question is open. -/
  | fails {choices : List (Choice α)} {left : List α} {row : α} {readings : List Reading}
      {last : Reading} (hturns : Turns known.deleted choices left)
      (hrows : choices.map (·.created) ++ [row] <+: known.created)
      (hasked : List.Forall₂ (Asked what name) choices readings)
      (hlast : last.question = ⟨what, name row, left.map name⟩) (hfails : last.Fails) :
      Converses what name known (.error inputClosed) (readings ++ [last]) []

/-- What a choice adds to the result of the later ones. -/
def Choice.note (c : Choice α) (r : Resolution α) : Resolution α :=
  match c.renaming? with
  | some x => { r with renamed := x :: r.renamed }
  | none => { r with created := c.created :: r.created }

variable {name : α → String} {what : String}

theorem settles_nil {rows deleted : List α} (h : rows = [] ∨ deleted = []) :
    Settles ⟨rows, deleted, []⟩ ⟨rows, deleted, []⟩ [] where
  turns := .nil deleted
  rows := List.nil_prefix
  complete := h.imp_left Eq.symm
  renamed := rfl
  created := rfl

theorem Settles.cons {c : Choice α} {rows : List α} {result : Resolution α}
    {choices : List (Choice α)} (hc : c.number ≤ c.unclaimed.length)
    (h : Settles ⟨rows, c.left, []⟩ result choices) :
    Settles ⟨c.created :: rows, c.unclaimed, []⟩ (c.note result) (c :: choices) := by
  have hdeleted : (c.note result).deleted = result.deleted := by
    unfold Choice.note
    split <;> rfl
  refine ⟨hdeleted ▸ .cons hc h.turns, ?_, ?_, ?_, ?_⟩
  · exact List.cons_prefix_cons.2 ⟨rfl, h.rows⟩
  · rw [hdeleted]
    exact h.complete.imp_left (congrArg (c.created :: ·))
  · have hrenamed := h.renamed
    unfold Choice.note
    split <;> simp_all
  · have hcreated := h.created
    unfold Choice.note
    split <;> simp_all

theorem Converses.cons {c : Choice α} {r : Reading} {rows : List α}
    {outcome : Except String (Resolution α)} {readings : List Reading} {rest : List String}
    (hr : Asked what name c r) (h : Converses what name ⟨rows, c.left, []⟩ outcome readings rest) :
    Converses what name ⟨c.created :: rows, c.unclaimed, []⟩ (outcome.map c.note)
      (r :: readings) rest := by
  have hc : c.number ≤ c.unclaimed.length := by
    have hle := hr.answers.1
    rw [hr.question] at hle
    simpa [Choice.question] using hle
  cases h with
  | succeeds rest hsettles hasked => exact .succeeds rest (hsettles.cons hc) (.cons hr hasked)
  | @fails choices left row readings last hturns hrows hasked hlast hfails =>
    have hrows : (c :: choices).map (·.created) ++ [row] <+: c.created :: rows :=
      List.cons_prefix_cons.2 ⟨rfl, hrows⟩
    exact .fails (.cons hc hturns) hrows (.cons hr hasked) hlast hfails

/-- Behind an answer the other rows are put to the user, and the choice is added. -/
theorem run_choose_of_answer {row : α} {rows deleted : List α} {n : ℕ}
    {s s' : List String × List Reading} (hne : deleted ≠ []) (hn : n ≤ deleted.length)
    (hrun : (noting ⟨what, name row, deleted.map name⟩).run s = (.ok n, s')) :
    (choose noting what name deleted (row :: rows)).run s =
      (choose noting what name (Choice.left ⟨row, deleted, n⟩) rows >>= fun rest =>
        pure (rest.map (Choice.note ⟨row, deleted, n⟩))).run s' := by
  rw [choose, if_neg (by simpa using hne), run_bind_of hrun]
  cases n with
  | zero => rfl
  | succ n =>
    have hold : deleted[n]? = some deleted[n] := List.getElem?_eq_getElem hn
    have hnote : Choice.note ⟨row, deleted, n + 1⟩ =
        fun r => { r with renamed := ⟨deleted[n], row⟩ :: r.renamed } := by
      funext r
      simp [Choice.note, Choice.renaming?, hold]
    rw [hnote]
    simp only [Nat.add_sub_cancel, hold]
    rfl

/-- **The created rows are put to the user in turn**, as long as there is something to choose. -/
theorem converses_choose : ∀ (rows deleted : List α) (lines : List String)
    (readings : List Reading), ∃ outcome more rest,
      (choose noting what name deleted rows).run (lines, readings) =
        (outcome, rest, readings ++ more) ∧
      Converses what name ⟨rows, deleted, []⟩ outcome more rest
  | [], deleted, lines, readings =>
    ⟨.ok ⟨[], deleted, []⟩, [], lines, by rw [List.append_nil]; rfl,
      .succeeds lines (settles_nil (.inl rfl)) .nil⟩
  | row :: rows, deleted, lines, readings => by
    by_cases hdeleted : deleted = []
    · subst hdeleted
      exact ⟨.ok ⟨row :: rows, [], []⟩, [], lines, by rw [List.append_nil]; rfl,
        .succeeds lines (settles_nil (.inr rfl)) .nil⟩
    obtain ⟨r, hquestion, ⟨n, left, hanswers, hrun⟩ | ⟨hfails, hrun⟩⟩ :=
      run_noting ⟨what, name row, deleted.map name⟩ lines readings
    · -- An answer is a choice, and the rest of the rows is settled behind it.
      have hn : n ≤ deleted.length := by simpa [hquestion] using hanswers.1
      have hr : Asked what name ⟨row, deleted, n⟩ r := ⟨hquestion, hanswers⟩
      obtain ⟨outcome, more, rest, hrest, hconverses⟩ :=
        converses_choose rows (Choice.left ⟨row, deleted, n⟩) left (readings ++ [r])
      refine ⟨outcome.map (Choice.note ⟨row, deleted, n⟩), r :: more, rest, ?_,
        hconverses.cons hr⟩
      rw [run_choose_of_answer hdeleted hn hrun, run_bind_of hrest, List.append_assoc]
      rfl
    · refine ⟨.error inputClosed, [r], [], ?_,
        .fails (.nil deleted) (by simp) .nil hquestion hfails⟩
      rw [choose, if_neg (by simpa using hdeleted), run_bind_of hrun]
      rfl

/-- What known renames have settled stands before the choices. -/
theorem Converses.complete {known : Resolution α} {outcome : Except String (Resolution α)}
    {readings : List Reading} {rest : List String}
    (h : Converses what name ⟨known.created, known.deleted, []⟩ outcome readings rest) :
    Converses what name known
      (outcome.map fun s => { s with renamed := known.renamed ++ s.renamed }) readings rest := by
  cases h with
  | succeeds rest hsettles hasked =>
    refine .succeeds rest ?_ hasked
    exact ⟨hsettles.turns, hsettles.rows, hsettles.complete,
      congrArg (known.renamed ++ ·) hsettles.renamed, hsettles.created⟩
  | fails hturns hrows hasked hlast hfails => exact .fails hturns hrows hasked hlast hfails

theorem converses_complete (known : Resolution α) (lines : List String)
    (readings : List Reading) : ∃ outcome more rest,
      (complete noting what name known).run (lines, readings) = (outcome, rest, readings ++ more) ∧
        Converses what name known outcome more rest := by
  obtain ⟨outcome, more, rest, hrun, h⟩ : ∃ outcome more rest,
      (choose noting what name known.deleted known.created).run (lines, readings) =
        (outcome, rest, readings ++ more) ∧
      Converses what name ⟨known.created, known.deleted, []⟩ outcome more rest :=
    converses_choose known.created known.deleted lines readings
  refine ⟨_, more, rest, ?_, h.complete⟩
  rw [complete, run_bind_of hrun]
  rfl

end

/-! ## Calls -/

/-- The questions of a call, behind the known renames. -/
def Answered (t : RenameTable) : (q : Request) → Except String q.Answer → List Reading →
    List String → Prop
  | .tables o => Converses "table" Table.name (t.resolve Table.name o)
  | .columns table o =>
    Converses ("column of \x60" ++ table ++ "\x60") Column.name (t.resolve Column.path o)
  | .views o => Converses "view" View.name (t.resolve View.name o)

theorem answered_answer (t : RenameTable) (q : Request) (lines : List String)
    (readings : List Reading) : ∃ outcome more rest,
      ((resolver noting t).answer q).run (lines, readings) = (outcome, rest, readings ++ more) ∧
        Answered t q outcome more rest := by
  cases q with
  | tables o | columns table o | views o => exact converses_complete _ lines readings

theorem rest_eq_nil {t : RenameTable} {qs : List Request} {readings readings' : List Reading}
    {es : List Exchange} {rest : List String}
    (h : ((resolver noting t).exchanges qs).run ([], readings) = (es, rest, readings')) :
    rest = [] := by
  obtain ⟨es', more, rest', -, hnoted, hlines⟩ := notedBy_exchanges t qs [] readings
  obtain rfl : rest = rest' := (Prod.mk.inj (Prod.mk.inj (h.symm.trans hnoted)).2).1
  exact (List.append_eq_nil_iff.1 hlines.symm).2

theorem answered_exchanges (t : RenameTable) : ∀ (qs : List Request) (lines : List String)
    (readings : List Reading), ∃ (parts : List (Exchange × List Reading)) (rest : List String),
      parts.map (·.1.request) = qs ∧
      ((resolver noting t).exchanges qs).run (lines, readings) =
        (parts.map (·.1), rest, readings ++ parts.flatMap (·.2)) ∧
      ∀ p ∈ parts, ∃ left, Answered t p.1.request p.1.outcome p.2 left ∧ (left = [] → rest = [])
  | [], lines, readings => ⟨[], lines, rfl, by rw [List.flatMap_nil, List.append_nil]; rfl, nofun⟩
  | q :: qs, lines, readings => by
    obtain ⟨outcome, more, left, hrun, hanswered⟩ := answered_answer t q lines readings
    obtain ⟨parts, rest, hqs, hparts, hall⟩ := answered_exchanges t qs left (readings ++ more)
    refine ⟨(⟨q, outcome⟩, more) :: parts, rest, congrArg (q :: ·) hqs, ?_,
      List.forall_mem_cons.2 ⟨⟨left, hanswered, fun hleft => rest_eq_nil (hleft ▸ hparts)⟩, hall⟩⟩
    rw [Resolver.run_exchanges_cons hrun hparts, List.flatMap_cons, ← List.append_assoc]
    rfl

theorem exists_read (q : Question) (line : String) (lines : List String) :
    ∃ outcome read rest, read ≠ [] ∧ line :: lines = read ++ rest ∧
      (fromLines q).run (line :: lines) = (outcome, rest) := by
  rcases exists_first_answer q.deleted.length (line :: lines) with
    ⟨n, passed, last, rest, hlines, hpassed, hlast⟩ | hlines
  · refine ⟨.ok n, passed ++ [last], rest, by simp, by rw [hlines, List.append_cons], ?_⟩
    rw [hlines]
    exact fromLines_of_answer hpassed hlast rest
  · exact ⟨.error inputClosed, line :: lines, [], List.cons_ne_nil _ _, (List.append_nil _).symm,
      fromLines_of_none hlines⟩

/-- **Lines that are no answer are harmless.** They change no outcome, wherever they are inserted.
Each question reads a line if there is one, and none is read twice; what a call adds to the known
renames are the choices that were made, row by row, by the numbers that were shown. -/
theorem invalid_lines_harmless (t : RenameTable) (qs : List Request) {lines padded : List String}
    (hlines : ∀ line ∈ lines, '\n' ∉ line.toList) (h : Padded lines padded) :
    (((resolver fromLines t).exchanges qs).run (linesOf (textOf padded))).1 =
      (((resolver fromLines t).exchanges qs).run (linesOf (textOf lines))).1 ∧
    (∀ (q : Question) (line : String) (more : List String), ∃ outcome read rest, read ≠ [] ∧
      line :: more = read ++ rest ∧ (fromLines q).run (line :: more) = (outcome, rest)) ∧
    (∃ (parts : List (Exchange × List Reading)) (rest : List String),
      parts.map (·.1.request) = qs ∧
      ((resolver fromLines t).exchanges qs).run (linesOf (textOf lines)) =
        (parts.map (·.1), rest) ∧
      ((resolver noting t).exchanges qs).run (linesOf (textOf lines), []) =
        (parts.map (·.1), rest, parts.flatMap (·.2)) ∧
      lines = (parts.flatMap (·.2)).flatMap (·.lines) ++ rest ∧
      ∀ p ∈ parts, ∃ left, Answered t p.1.request p.1.outcome p.2 left ∧
        (left = [] → rest = [])) ∧
    ∀ {α : Type} {c : Choice α} {x : Renaming α}, c.renaming? = some x →
      ∀ (what : String) (name : α → String), x.new = c.created ∧ x.old ∈ c.unclaimed ∧
        (c.question what name).lines[c.number + 1]? = some ("  " ++ toString c.number ++
          ") rename \x60" ++ name x.old ++ "\x60 -> \x60" ++ name x.new ++ "\x60") := by
  rw [linesOf_textOf hlines, linesOf_textOf (h.whole hlines)]
  refine ⟨?_, exists_read, ?_, Choice.shown⟩
  · obtain ⟨es, rest, rest', hrun, hrun', -⟩ := deaf_exchanges t qs lines padded h
    rw [hrun, hrun']
  · obtain ⟨parts, rest, hqs, hnoted, hall⟩ := answered_exchanges t qs lines []
    obtain ⟨es, readings, rest', hrun, hnoted', hread⟩ := notedBy_exchanges t qs lines []
    obtain ⟨rfl, hstate⟩ := Prod.mk.inj (hnoted.symm.trans hnoted')
    obtain ⟨rfl, hreadings⟩ := Prod.mk.inj hstate
    obtain rfl : parts.flatMap (·.2) = readings := hreadings
    exact ⟨parts, rest, hqs, hrun, hnoted, hread, hall⟩

/-- Words, a negative number and one that is too large are passed over between two answers. -/
theorem invalid_lines_harmless_of_words :
    let qs := [Request.tables ⟨[⟨"people"⟩, ⟨"tags"⟩], [⟨"users"⟩, ⟨"persons"⟩]⟩, .views ⟨[], []⟩]
    let lines := ["2", "9", " "]
    let padded := ["nine", "2", "-1", "9", "18446744073709551616", " ", "?"]
    (∀ line ∈ lines, '\n' ∉ line.toList) ∧ Padded lines padded ∧
    (((resolver fromLines {}).exchanges qs).run (linesOf (textOf padded))).1 =
      [⟨.tables ⟨[⟨"people"⟩, ⟨"tags"⟩], [⟨"users"⟩, ⟨"persons"⟩]⟩,
          .ok ⟨[⟨"tags"⟩], [⟨"users"⟩], [⟨⟨"persons"⟩, ⟨"people"⟩⟩]⟩⟩,
        ⟨.views ⟨[], []⟩, .ok ⟨[], [], []⟩⟩] := by
  intro qs lines padded
  have hlines : ∀ line ∈ lines, '\n' ∉ line.toList := by decide
  have hpadded : Padded lines padded :=
    .invalid (by decide) (.line _ (.invalid (by decide) (.line _ (.invalid (by decide)
      (.line _ (.invalid (by decide) .nil))))))
  refine ⟨hlines, hpadded, (invalid_lines_harmless {} qs hlines hpadded).1.trans ?_⟩
  rw [linesOf_textOf hlines]
  rfl

end Prompt

end SchemaEvolution
