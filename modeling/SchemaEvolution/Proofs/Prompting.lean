import Mathlib.Data.List.Perm.Basic
import SchemaEvolution.Proofs.Requests
import SchemaEvolution.Rename.Prompt

/-!
# Answers from lines

A user who is asked for renames answers with lines of text, and all calls share one text.

**What a computation reads** (`Prompt.Reads`): it comes to its result whatever lines follow those
that it reads, and leaves them all.

**Asking is served by lines** (`Prompt.Serves`): either a first part of the lines is read and
answers, or the lines run out, though more lines would have answered. This holds of a single
question (`Prompt.serves_fromLines`) and passes from the parts of a computation to the whole
(`Prompt.Serves.bind`), so it holds of every request (`Prompt.serves_answer`).

**Consecutive requests read consecutive parts of a text** (`Resolver.exists_conducted`), since each
starts where the one before it has stopped. The same is true of the single questions
(`Prompt.notedBy_exchanges`), so no line is read twice (`Resolver.keeps_contract`).
-/

namespace SchemaEvolution

namespace Prompt

/-! ## Reading lines -/

section

variable {σ β γ : Type}

theorem run_bind_of {x : StateM σ β} {f : β → StateM σ γ} {s s' : σ} {b : β}
    (h : x.run s = (b, s')) : (x >>= f).run s = (f b).run s' := by
  rw [StateT.run_bind, h]
  rfl

/-- The computation reads these lines and no others, and comes to this result. -/
def Reads (x : StateM (List String) β) (lines : List String) (b : β) : Prop :=
  ∀ rest, x.run (lines ++ rest) = (b, rest)

/-- The lines of any text are read up to an answer with the property, or they run out before there
is one. In that case more lines lead to such an answer. -/
def Serves (P : β → Prop) (x : StateM (List String) (Except String β)) : Prop :=
  ∀ lines, (∃ b read rest, lines = read ++ rest ∧ P b ∧ Reads x read (.ok b)) ∨
    x.run lines = (.error inputClosed, []) ∧ ∃ b more, P b ∧ Reads x (lines ++ more) (.ok b)

theorem serves_pure {P : β → Prop} {b : β} (h : P b) :
    Serves P (pure (.ok b) : StateM (List String) (Except String β)) :=
  fun lines => .inl ⟨b, [], lines, rfl, h, fun _ => rfl⟩

/-- Two computations, of which the second one starts where the first one stops. -/
theorem Reads.bind {x : StateM (List String) β} {f : β → StateM (List String) γ}
    {ls ms : List String} {b : β} {c : γ} (hx : Reads x ls b) (hf : Reads (f b) ms c) :
    Reads (x >>= f) (ls ++ ms) c := by
  intro rest
  rw [List.append_assoc, run_bind_of (hx _)]
  exact hf rest

theorem Serves.bind {P : β → Prop} {Q : γ → Prop} {x : StateM (List String) (Except String β)}
    {f : Except String β → StateM (List String) (Except String γ)} (hx : Serves P x)
    (hok : ∀ b, P b → Serves Q (f (.ok b))) (herror : ∀ e, f (.error e) = pure (.error e)) :
    Serves Q (x >>= f) := by
  intro lines
  rcases hx lines with ⟨b, read, rest, rfl, hb, hread⟩ | ⟨hout, b, more, hb, hread⟩
  · rcases hok b hb rest with ⟨c, read', rest', rfl, hc, hread'⟩ | ⟨hout, c, more, hc, hread'⟩
    · exact .inl ⟨c, read ++ read', rest', (List.append_assoc ..).symm, hc, hread.bind hread'⟩
    · refine .inr ⟨?_, c, more, hc, ?_⟩
      · rw [run_bind_of (hread _)]
        exact hout
      · rw [List.append_assoc]
        exact hread.bind hread'
  · refine .inr ⟨?_, ?_⟩
    · rw [run_bind_of hout]
      exact congrArg (·.run []) (herror inputClosed)
    · -- Once there is an answer, the computation goes on with no lines left.
      rcases hok b hb [] with ⟨c, read', rest', h, hc, hread'⟩ | ⟨-, c, more', hc, hread'⟩
      · obtain ⟨rfl, rfl⟩ := List.append_eq_nil_iff.1 h.symm
        exact ⟨c, more ++ [], hc, List.append_assoc lines .. ▸ hread.bind hread'⟩
      · exact ⟨c, more ++ more', hc, List.append_assoc lines .. ▸ hread.bind hread'⟩

theorem Serves.map {P : β → Prop} {Q : γ → Prop} {x : StateM (List String) (Except String β)}
    {f : β → γ} (hx : Serves P x) (hf : ∀ b, P b → Q (f b)) :
    Serves Q (do return (← x).map f) :=
  hx.bind (fun b hb => serves_pure (hf b hb)) fun _ => rfl

end

/-! ## One question -/

theorem le_of_answer? {most n : ℕ} {line : String} (h : answer? most line = some n) : n ≤ most := by
  unfold answer? at h
  dsimp only at h
  split at h
  · cases h
    exact Nat.zero_le most
  · simpa using (Option.filter_eq_some_iff.1 h).2

theorem nextAnswer?_cons_of_some {most n : ℕ} {line : String} (h : answer? most line = some n)
    (lines : List String) : nextAnswer? most (line :: lines) = some (n, lines) := by
  rw [nextAnswer?, h]

theorem nextAnswer?_cons_of_none {most : ℕ} {line : String} (h : answer? most line = none)
    (lines : List String) : nextAnswer? most (line :: lines) = nextAnswer? most lines := by
  rw [nextAnswer?, h]

/-- Lines that are no answer are passed over. -/
theorem nextAnswer?_append {most : ℕ} {passed : List String}
    (h : ∀ l ∈ passed, answer? most l = none) (lines : List String) :
    nextAnswer? most (passed ++ lines) = nextAnswer? most lines := by
  induction passed with
  | nil => rfl
  | cons line passed ih =>
    rw [List.forall_mem_cons] at h
    rw [List.cons_append, nextAnswer?_cons_of_none h.1, ih h.2]

/-- Some line is the first answer, or none is one. -/
theorem exists_first_answer (most : ℕ) (lines : List String) :
    (∃ n passed line rest, lines = passed ++ line :: rest ∧
      (∀ l ∈ passed, answer? most l = none) ∧ answer? most line = some n) ∨
      ∀ l ∈ lines, answer? most l = none := by
  cases hfirst : lines.find? fun l => (answer? most l).isSome with
  | some line =>
    obtain ⟨hline, passed, rest, hlines, hpassed⟩ := List.find?_eq_some_iff_append.1 hfirst
    obtain ⟨n, hn⟩ := Option.isSome_iff_exists.1 hline
    exact .inl ⟨n, passed, line, rest, hlines, by simpa using hpassed, hn⟩
  | none => exact .inr (by simpa using List.find?_eq_none.1 hfirst)

/-- The lines up to the first answer are read and no other; else all lines are passed over. -/
theorem nextAnswer?_cases (most : Nat) (lines : List String) :
    (∃ n read rest, lines = read ++ rest ∧ n ≤ most ∧
      ∀ more, nextAnswer? most (read ++ more) = some (n, more)) ∨
      ∀ more, nextAnswer? most (lines ++ more) = nextAnswer? most more := by
  rcases exists_first_answer most lines with ⟨n, passed, line, rest, rfl, hpassed, hline⟩ | hlines
  · refine .inl ⟨n, passed ++ [line], rest, List.append_cons .., le_of_answer? hline,
      fun more => ?_⟩
    rw [← List.append_cons, nextAnswer?_append hpassed, nextAnswer?_cons_of_some hline]
  · exact .inr (nextAnswer?_append hlines)

/-- **A question is answered with a number on offer**, unless the lines run out. An empty line
would have been enough. -/
theorem serves_fromLines (q : Question) : Serves (· ≤ q.deleted.length) (fromLines q) := by
  intro lines
  rcases nextAnswer?_cases q.deleted.length lines with ⟨n, read, rest, rfl, hn, hread⟩ | hread
  · refine .inl ⟨n, read, rest, rfl, hn, fun more => ?_⟩
    show fromLines q (read ++ more) = _
    rw [fromLines, hread]
  · refine .inr ⟨?_, 0, [""], Nat.zero_le _, fun more => ?_⟩
    · show fromLines q lines = _
      rw [fromLines, ← List.append_nil lines, hread]
      rfl
    · show fromLines q (lines ++ [""] ++ more) = _
      rw [fromLines, List.append_assoc, hread]
      rfl

end Prompt

/-! ## Rows that are put to the user -/

namespace Resolution

variable {α : Type} [Row α] {o : Offer α} {r : Resolution α}

theorem Accounts.create {row : α} {rows deleted : List α} (h : r.Accounts ⟨rows, deleted⟩) :
    Accounts ⟨row :: rows, deleted⟩ { r with created := row :: r.created } :=
  ⟨h.created.cons _, h.deleted⟩

/-- A row that a deleted row is renamed to; that row is not on offer any more. -/
theorem Accounts.rename {row : α} {rows deleted : List α} {n : Nat} (hn : n < deleted.length)
    (h : r.Accounts ⟨rows, deleted.eraseIdx n⟩) :
    Accounts ⟨row :: rows, deleted⟩ { r with renamed := ⟨deleted[n], row⟩ :: r.renamed } := by
  have hmoved {xs ys zs : List α} {x : α} (hp : (xs.map Row.key).Perm ((ys ++ zs).map Row.key)) :
      ((x :: xs).map Row.key).Perm ((ys ++ x :: zs).map Row.key) :=
    (hp.cons (Row.key x)).trans (List.perm_middle.symm.map Row.key)
  exact ⟨hmoved h.created,
    ((List.getElem_cons_eraseIdx_perm hn).symm.map Row.key).trans (hmoved h.deleted)⟩

/-- An answer to what another answer has left on offer. -/
theorem Accounts.append {s : Resolution α} (h : r.Accounts o) (hs : s.Accounts r.pending) :
    Accounts o { s with renamed := r.renamed ++ s.renamed } := by
  have hmoved {xs ys zs ws : List Key} (hp : xs.Perm (ys ++ zs)) :
      (xs ++ ws).Perm (ys ++ (ws ++ zs)) := by
    calc (xs ++ ws).Perm (ys ++ zs ++ ws) := hp.append_right ws
      _ = ys ++ (zs ++ ws) := List.append_assoc ..
      List.Perm _ (ys ++ (ws ++ zs)) := List.perm_append_comm.append_left ys
  constructor
  · refine h.created.trans ?_
    have := hs.created
    simp only [createdKeys, pending, List.map_append] at this ⊢
    exact hmoved this
  · refine h.deleted.trans ?_
    have := hs.deleted
    simp only [deletedKeys, pending, List.map_append] at this ⊢
    exact hmoved this

end Resolution

namespace Prompt

variable {α : Type} [Row α] {name : α → String} {what : String}

theorem serves_choose : ∀ rows deleted : List α,
    Serves (Resolution.Accounts ⟨rows, deleted⟩) (choose fromLines what name deleted rows)
  | [], deleted => serves_pure (Resolution.accounts_unchanged ⟨[], deleted⟩)
  | row :: rows, deleted => by
    rw [choose]
    split
    · exact serves_pure (Resolution.accounts_unchanged ⟨row :: rows, deleted⟩)
    · refine (serves_fromLines _).bind (fun n hn => ?_) fun _ => rfl
      have hn : n ≤ deleted.length := by simpa using hn
      cases n with
      | zero => exact (serves_choose rows deleted).map fun r hr => hr.create
      | succ n =>
        simp only [Nat.add_sub_cancel, List.getElem?_eq_getElem hn]
        exact (serves_choose rows (deleted.eraseIdx n)).map fun r hr => hr.rename hn

theorem serves_complete {o : Offer α} {r : Resolution α} (h : r.Accounts o) :
    Serves (fun a => Resolution.verify o a = .ok ()) (complete fromLines what name r) :=
  (serves_choose r.created r.deleted).map fun _ hs => (h.append hs).verify

/-- **Every request is answered with what accounts for it**, unless the lines run out. -/
theorem serves_answer (t : RenameTable) (q : Request) :
    Serves q.Accepts ((resolver fromLines t).answer q) := by
  cases q with
  | tables o => exact serves_complete (t.accounts_resolve Table.name o)
  | columns _ o => exact serves_complete (t.accounts_resolve Column.path o)
  | views o => exact serves_complete (t.accounts_resolve View.name o)

end Prompt

/-! ## Consecutive requests -/

namespace Resolver

/-- The exchange is what comes of its request from these lines alone. Either the answer passes and
what follows the lines is not looked at, or there are no more lines and these do not suffice. -/
def Conducts (r : Resolver (StateM (List String))) (rest : List String) (e : Exchange)
    (lines : List String) : Prop :=
  (∃ a, e.outcome = .ok a ∧ e.request.Accepts a ∧
      Prompt.Reads (r.answer e.request) lines e.outcome) ∨
    e.outcome = .error Prompt.inputClosed ∧ rest = [] ∧
      (r.answer e.request).run lines = (e.outcome, []) ∧
        ∃ a more, e.request.Accepts a ∧
          Prompt.Reads (r.answer e.request) (lines ++ more) (.ok a)

theorem run_exchanges_cons {σ : Type} {r : Resolver (StateM σ)} {q : Request} {qs : List Request}
    {outcome : Except String q.Answer} {es : List Exchange} {s left rest : σ}
    (h : (r.answer q).run s = (outcome, left)) (hes : (r.exchanges qs).run left = (es, rest)) :
    (r.exchanges (q :: qs)).run s = (⟨q, outcome⟩ :: es, rest) := by
  rw [exchanges, Prompt.run_bind_of h, Prompt.run_bind_of hes]
  rfl

/-- **Consecutive requests read consecutive parts of the lines**, each its own. -/
theorem exists_conducted {r : Resolver (StateM (List String))}
    (hr : ∀ q : Request, Prompt.Serves q.Accepts (r.answer q)) :
    ∀ (qs : List Request) (lines : List String), ∃ (parts : List (Exchange × List String))
      (rest : List String), parts.map (·.1.request) = qs ∧
        (r.exchanges qs).run lines = (parts.map (·.1), rest) ∧
          lines = parts.flatMap (·.2) ++ rest ∧ ∀ p ∈ parts, r.Conducts rest p.1 p.2
  | [], lines => ⟨[], lines, rfl, rfl, rfl, by simp⟩
  | q :: qs, lines => by
    rcases hr q lines with ⟨a, read, left, rfl, ha, hread⟩ | ⟨hout, hmore⟩
    · obtain ⟨parts, rest, hreq, hparts, hlines, hc⟩ := exists_conducted hr qs left
      refine ⟨(⟨q, .ok a⟩, read) :: parts, rest, congrArg (q :: ·) hreq,
        run_exchanges_cons (hread left) hparts, ?_, ?_⟩
      · rw [List.flatMap_cons, List.append_assoc, ← hlines]
      · exact List.forall_mem_cons.2 ⟨.inl ⟨a, rfl, ha, hread⟩, hc⟩
    · -- Nothing is left for the requests to come.
      obtain ⟨parts, rest, hreq, hparts, hlines, hc⟩ := exists_conducted hr qs []
      obtain ⟨hflat, hrest⟩ := List.append_eq_nil_iff.1 hlines.symm
      refine ⟨(⟨q, .error Prompt.inputClosed⟩, lines) :: parts, rest, congrArg (q :: ·) hreq,
        run_exchanges_cons hout hparts, ?_, ?_⟩
      · rw [List.flatMap_cons, hflat, hrest, List.append_nil, List.append_nil]
      · exact List.forall_mem_cons.2 ⟨.inr ⟨rfl, hrest, hout, hmore⟩, hc⟩

end Resolver

/-! ## Question by question -/

namespace Prompt

/-- A question and the lines that are read for it. -/
structure Reading where
  question : Question
  lines : List String

/-- Answers a question from the lines that are left, and notes which lines are read for it. -/
def noting (q : Question) : StateM (List String × List Reading) (Except String Nat) :=
  fun (lines, readings) =>
    let (answer, rest) := fromLines q lines
    (answer, rest, readings ++ [⟨q, lines.take (lines.length - rest.length)⟩])

/-- The second computation does what the first one does, and notes all lines that are read, each
for one question. -/
def NotedBy {β : Type} (x : StateM (List String) β)
    (y : StateM (List String × List Reading) β) : Prop :=
  ∀ lines readings, ∃ (b : β) (more : List Reading) (rest : List String),
    x.run lines = (b, rest) ∧ y.run (lines, readings) = (b, rest, readings ++ more) ∧
      lines = more.flatMap (·.lines) ++ rest

section

variable {β γ : Type}

theorem notedBy_pure (b : β) : NotedBy (pure b) (pure b) :=
  fun lines readings =>
    ⟨b, [], lines, rfl, congrArg (b, lines, ·) (List.append_nil readings).symm, rfl⟩

theorem NotedBy.bind {x : StateM (List String) β} {y : StateM (List String × List Reading) β}
    {f : β → StateM (List String) γ} {g : β → StateM (List String × List Reading) γ}
    (hx : NotedBy x y) (hf : ∀ b, NotedBy (f b) (g b)) : NotedBy (x >>= f) (y >>= g) := by
  intro lines readings
  obtain ⟨b, more, rest, hxr, hyr, rfl⟩ := hx lines readings
  obtain ⟨c, more', rest', hfr, hgr, rfl⟩ := hf b rest (readings ++ more)
  refine ⟨c, more ++ more', rest', (run_bind_of hxr).trans hfr, ?_, ?_⟩
  · rw [run_bind_of hyr, ← List.append_assoc]
    exact hgr
  · rw [List.flatMap_append, List.append_assoc]

theorem notedBy_noting (q : Question) : NotedBy (fromLines q) (noting q) := by
  intro lines readings
  rcases nextAnswer?_cases q.deleted.length lines with ⟨n, read, rest, rfl, hn, hread⟩ | hread
  · have hrun : fromLines q (read ++ rest) = (.ok n, rest) := by rw [fromLines, hread]
    refine ⟨.ok n, [⟨q, read⟩], rest, hrun, ?_, by simp⟩
    show noting q (read ++ rest, readings) = _
    simp [noting, hrun]
  · have hrun : fromLines q lines = (.error inputClosed, []) := by
      rw [fromLines, ← List.append_nil lines, hread]
      rfl
    refine ⟨.error inputClosed, [⟨q, lines⟩], [], hrun, ?_, by simp⟩
    show noting q (lines, readings) = _
    simp [noting, hrun]

variable {α : Type} {name : α → String} {what : String}

theorem notedBy_choose : ∀ rows deleted : List α,
    NotedBy (choose fromLines what name deleted rows) (choose noting what name deleted rows)
  | [], _ => notedBy_pure _
  | row :: rows, deleted => by
    rw [choose, choose]
    split
    · exact notedBy_pure _
    · refine (notedBy_noting _).bind fun answer => ?_
      cases answer with
      | error reason => exact notedBy_pure _
      | ok n =>
        dsimp only
        split
        · exact (notedBy_choose rows _).bind fun _ => notedBy_pure _
        · exact (notedBy_choose rows _).bind fun _ => notedBy_pure _

end

theorem notedBy_answer (t : RenameTable) (q : Request) :
    NotedBy ((resolver fromLines t).answer q) ((resolver noting t).answer q) := by
  cases q with
  | tables o | columns _ o | views o =>
    exact (notedBy_choose _ _).bind fun _ => notedBy_pure _

theorem notedBy_exchanges (t : RenameTable) : ∀ qs : List Request,
    NotedBy ((resolver fromLines t).exchanges qs) ((resolver noting t).exchanges qs)
  | [] => notedBy_pure _
  | q :: qs => (notedBy_answer t q).bind fun _ =>
      (notedBy_exchanges t qs).bind fun _ => notedBy_pure _

/-- What consecutive requests come to, if a user answers with these lines: the exchanges, each with
its part of the lines, the lines that are left, and for each question the lines read for it. -/
structure Session (t : RenameTable) (qs : List Request) (lines : List String)
    (parts : List (Exchange × List String)) (rest : List String) (readings : List Reading) :
    Prop where
  requests : parts.map (·.1.request) = qs
  run : ((resolver fromLines t).exchanges qs).run lines = (parts.map (·.1), rest)
  noted : ((resolver noting t).exchanges qs).run (lines, []) =
    (parts.map (·.1), rest, readings)
  lines_parts : lines = parts.flatMap (·.2) ++ rest
  lines_readings : lines = readings.flatMap (·.lines) ++ rest
  conducted : ∀ p ∈ parts, (resolver fromLines t).Conducts rest p.1 p.2

theorem exists_session (t : RenameTable) (qs : List Request) (lines : List String) :
    ∃ parts rest readings, Session t qs lines parts rest readings := by
  obtain ⟨parts, rest, hreq, hrun, hlines, hc⟩ :=
    Resolver.exists_conducted (serves_answer t) qs lines
  obtain ⟨es, readings, rest', hrun', hnoted, hreadings⟩ := notedBy_exchanges t qs lines []
  obtain ⟨rfl, rfl⟩ := Prod.mk.inj (hrun.symm.trans hrun')
  exact ⟨parts, rest, readings, hreq, hrun, hnoted, hlines, hreadings, hc⟩

end Prompt

/-- **Every resolver keeps the contract**: those that do not ask answer every request with what
passes. One that asks does so too, unless the lines of its text run out; no line is read twice,
however many requests share the text. -/
theorem Resolver.keeps_contract (t : RenameTable) :
    (∀ (m : Type → Type) [Monad m] (q : Request),
      (∃ a, (Resolver.never : Resolver m).answer q = pure (.ok a) ∧ q.Accepts a) ∧
        ∃ a, (t.resolver : Resolver m).answer q = pure (.ok a) ∧ q.Accepts a) ∧
      ∀ (text : String) (qs : List Request), ∃ parts rest readings,
        Prompt.Session t qs (Prompt.linesOf text) parts rest readings :=
  ⟨fun _ _ q => ⟨accepts_never q, accepts_known t q⟩,
    fun text qs => Prompt.exists_session t qs (Prompt.linesOf text)⟩

end SchemaEvolution
