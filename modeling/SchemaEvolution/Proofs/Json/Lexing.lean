import SchemaEvolution.Json.Printer
import SchemaEvolution.Json.Reader

/-!
# Tokens of a written document

What the printer writes, the lexer takes apart again. The documents here have no numbers
(`Json.isText`), and the printer is the one that indents.

**A string** is written character by character, and each character comes back, escaped or not
(`Lexer.run_escapeChar`, `Lexer.run_quoted`).

**A document** gives its tokens in order (`Json.tokens`). A word, such as `null`, ends only where
the next sign begins, so what has been read is told by `Lexer.Reads`; **every part of a document
adds its tokens** to what has been read (`Lexer.run_prettyChars`).
-/

namespace SchemaEvolution.Json

/-! ## Documents without numbers -/

mutual

/-- Whether a document is made of texts, flags and nothing else, and nests at most `depth` deep. -/
def isText (depth : Nat) : Json → Bool
  | .array items => 0 < depth && itemsAreText (depth - 1) items
  | .object members => 0 < depth && membersAreText (depth - 1) members
  | .number _ => false
  | .unreadable => false
  | _ => true

/-- Whether all items of an array are made of texts and flags. -/
def itemsAreText (depth : Nat) : List Json → Bool
  | [] => true
  | x :: xs => isText depth x && itemsAreText depth xs

/-- Whether all members of an object are made of texts and flags. -/
def membersAreText (depth : Nat) : List (String × Json) → Bool
  | [] => true
  | (_, x) :: ms => isText depth x && membersAreText depth ms

end

/-! ## The tokens of a document -/

mutual

/-- The tokens of a document in order. -/
def tokens : Json → List Token
  | .array (x :: xs) => .openArray :: tokens x ++ itemTokens xs
  | .object ((k, x) :: ms) =>
    .openObject :: .string (some k) :: .colon :: tokens x ++ memberTokens ms
  | .null => [.null]
  | .bool b => [.bool b]
  | .number n => [.number n]
  | .string s => [.string (some s)]
  | .array [] => [.openArray, .closeArray]
  | .object [] => [.openObject, .closeObject]
  | .unreadable => [.string none]

/-- The tokens of the items of an array after the first one. -/
def itemTokens : List Json → List Token
  | [] => [.closeArray]
  | x :: xs => .comma :: tokens x ++ itemTokens xs

/-- The tokens of the members of an object after the first one. -/
def memberTokens : List (String × Json) → List Token
  | [] => [.closeObject]
  | (k, x) :: ms => .comma :: .string (some k) :: .colon :: tokens x ++ memberTokens ms

end

namespace Lexer

/-! ## Runs of the lexer -/

/-- Takes one character after the other. -/
def run (s : Lexer) (cs : List Char) : Option Lexer :=
  cs.foldlM step s

variable {s t : Lexer} {ts : List Token} {cs ds : List Char} {c : Char}

theorem run_cons : s.run (c :: cs) = (s.step c).bind (·.run cs) :=
  rfl

theorem run_append : s.run (cs ++ ds) = (s.run cs).bind (·.run ds) :=
  List.foldlM_append

theorem run_append_of (h : s.run cs = some t) : s.run (cs ++ ds) = t.run ds := by
  rw [run_append, h]
  rfl

/-- The tokens have been read, the last of them up to its end. -/
inductive Reads : Lexer → List Token → Prop where
  | idle (ts : List Token) : Reads ⟨ts, .idle⟩ ts
  | word {ts : List Token} {w : List Char} {t : Token} (h : Token.ofWord? w.reverse = some t) :
      Reads ⟨ts, .word w⟩ (t :: ts)

/-- A sign that belongs to no word ends a word. -/
theorem Reads.step (h : s.Reads ts) (hc : isWordChar c = false) : s.step c = stepIdle ts c := by
  cases h with
  | idle => rfl
  | word hw => simp [Lexer.step, hc, hw]

theorem Reads.finish (h : s.Reads ts) : s.finish = some ts.reverse := by
  cases h with
  | idle => rfl
  | word hw => simp [Lexer.finish, hw]

theorem Reads.run_next (h : s.Reads ts) (hc : isWordChar c = false) :
    s.run (c :: cs) = (stepIdle ts c).bind (·.run cs) := by
  rw [run_cons, h.step hc]

theorem run_spaces (n : Nat) : run ⟨ts, .idle⟩ (List.replicate n ' ') = some ⟨ts, .idle⟩ := by
  induction n with
  | zero => rfl
  | succ n ih => rw [List.replicate_succ, (Reads.idle ts).run_next rfl]; exact ih

theorem Reads.run_newLine (h : s.Reads ts) (level : Nat) :
    s.run (newLine level) = some ⟨ts, .idle⟩ := by
  rw [newLine, h.run_next rfl]
  exact run_spaces _

/-! ## Strings -/

theorem step_text (ts : List Token) (ps : List Piece) (c : Char) :
    step ⟨ts, .text ps⟩ c =
      if c = '"' then some ⟨.string ((Piece.text? ps.reverse).map String.ofList) :: ts, .idle⟩
      else if c = '\\' then some ⟨ts, .escape ps⟩
      else if c.toNat < 0x20 then none
      else some ⟨ts, .text (.char c :: ps)⟩ :=
  rfl

/-- A part of a string stands for a character. -/
inductive Denotes : Piece → Char → Prop where
  | char (c : Char) : Denotes (.char c) c
  | unit {c : Char} (h : c.toNat < 0x20) : Denotes (.unit c.toNat) c

theorem text?_cons {p : Piece} {ps : List Piece} (h : Denotes p c)
    (hps : Piece.text? ps = some cs) : Piece.text? (p :: ps) = some (c :: cs) := by
  cases h with
  | char => rw [Piece.text?, hps]; rfl
  | unit h =>
    have hlow : c.toNat < 0xD800 ∨ 0xDFFF < c.toNat := .inl (by omega)
    unfold Piece.text?
    rw [if_pos hlow, hps, Char.ofNat_toNat]
    rfl

theorem hexValue?_hexDigit : ∀ n < 16, hexValue? (hexDigit n) = some n := by
  decide

theorem run_hex (ts : List Token) (ps : List Piece) {n : Nat} (h : n < 256) :
    run ⟨ts, .hex ps [0, 0]⟩ [hexDigit (n / 16), hexDigit (n % 16)] =
      some ⟨ts, .text (.unit n :: ps)⟩ := by
  have hhigh : step ⟨ts, .hex ps [0, 0]⟩ (hexDigit (n / 16)) =
      some ⟨ts, .hex ps [n / 16, 0, 0]⟩ := by
    rw [step, hexValue?_hexDigit (n / 16) (by omega)]
    rfl
  have hlow : step ⟨ts, .hex ps [n / 16, 0, 0]⟩ (hexDigit (n % 16)) =
      some ⟨ts, .text (.unit (16 * (16 * 0 + n / 16) + n % 16) :: ps)⟩ := by
    rw [step, hexValue?_hexDigit (n % 16) (by omega)]
    rfl
  have hvalue : 16 * (16 * 0 + n / 16) + n % 16 = n := by omega
  rw [run_cons, hhigh, Option.bind_some, run_cons, hlow, hvalue]
  rfl

/-- **A character comes back as it was**, however it is written. -/
theorem run_escapeChar (ts : List Token) (ps : List Piece) (c : Char) :
    ∃ p, run ⟨ts, .text ps⟩ (escapeChar c) = some ⟨ts, .text (p :: ps)⟩ ∧ Denotes p c := by
  unfold escapeChar
  split
  · next h => exact ⟨.char '"', rfl, h ▸ .char _⟩
  split
  · next h => exact ⟨.char '\\', rfl, h ▸ .char _⟩
  split
  · next h => exact ⟨.char '\x08', rfl, h ▸ .char _⟩
  split
  · next h => exact ⟨.char '\x0c', rfl, h ▸ .char _⟩
  split
  · next h => exact ⟨.char '\n', rfl, h ▸ .char _⟩
  split
  · next h => exact ⟨.char '\r', rfl, h ▸ .char _⟩
  split
  · next h => exact ⟨.char '\t', rfl, h ▸ .char _⟩
  split
  · next h => exact ⟨.unit c.toNat, run_hex ts ps (by omega), .unit h⟩
  · next hquote hback _ _ _ _ _ hcontrol =>
    refine ⟨.char c, ?_, .char c⟩
    rw [run_cons, step_text, if_neg hquote, if_neg hback, if_neg hcontrol]
    rfl

theorem run_escapeChars (ts : List Token) (cs : List Char) (ps : List Piece) :
    ∃ qs, run ⟨ts, .text ps⟩ (cs.flatMap escapeChar) = some ⟨ts, .text (qs.reverse ++ ps)⟩ ∧
      Piece.text? qs = some cs := by
  induction cs generalizing ps with
  | nil => exact ⟨[], rfl, rfl⟩
  | cons c cs ih =>
    obtain ⟨p, hp, hc⟩ := run_escapeChar ts ps c
    obtain ⟨qs, hqs, ht⟩ := ih (p :: ps)
    refine ⟨p :: qs, ?_, text?_cons hc ht⟩
    rw [List.flatMap_cons, run_append_of hp, hqs, List.reverse_cons, List.append_assoc]
    rfl

/-- **A string is read as it was written.** -/
theorem Reads.run_quoted (h : s.Reads ts) (text : String) :
    s.run (quoted text) = some ⟨.string (some text) :: ts, .idle⟩ := by
  obtain ⟨qs, hqs, ht⟩ := run_escapeChars ts text.toList []
  rw [quoted, List.cons_append, h.run_next rfl]
  show run ⟨ts, .text []⟩ (text.toList.flatMap escapeChar ++ ['"']) = _
  rw [List.append_nil] at hqs
  rw [run_append_of hqs, run_cons, step_text, if_pos rfl, List.reverse_reverse, ht,
    Option.map_some, String.ofList_toList]
  rfl

/-! ## Documents -/

theorem run_prettyMember {k : String} {x : Json} {level : Nat}
    (h : ∃ s, run ⟨.colon :: .string (some k) :: ts, .idle⟩ (x.prettyChars level) = some s ∧
      s.Reads (x.tokens.reverse ++ .colon :: .string (some k) :: ts)) :
    ∃ s, run ⟨ts, .idle⟩ (newLine level ++ quoted k ++ ':' :: ' ' :: x.prettyChars level) = some s ∧
      s.Reads (x.tokens.reverse ++ .colon :: .string (some k) :: ts) := by
  obtain ⟨s, hs, hread⟩ := h
  refine ⟨s, ?_, hread⟩
  rw [List.append_assoc, run_append_of ((Reads.idle _).run_newLine _),
    run_append_of ((Reads.idle _).run_quoted k)]
  exact hs

mutual

/-- **A written document is taken apart into its tokens.** -/
theorem run_prettyChars (ts : List Token) (level : Nat) :
    ∀ (depth : Nat) (x : Json), x.isText depth = true →
      ∃ s, run ⟨ts, .idle⟩ (x.prettyChars level) = some s ∧ s.Reads (x.tokens.reverse ++ ts)
  | _, .null, _ => ⟨_, rfl, .word rfl⟩
  | _, .bool true, _ => ⟨_, rfl, .word rfl⟩
  | _, .bool false, _ => ⟨_, rfl, .word rfl⟩
  | _, .string text, _ => ⟨_, (Reads.idle ts).run_quoted text, .idle _⟩
  | _, .array [], _ => ⟨_, rfl, .idle _⟩
  | _, .object [], _ => ⟨_, rfl, .idle _⟩
  | depth, .array (x :: xs), h => by
    obtain ⟨hx, hxs⟩ := Bool.and_eq_true_iff.1 (Bool.and_eq_true_iff.1 h).2
    obtain ⟨s, hs, hread⟩ := run_prettyChars (.openArray :: ts) (level + 1) (depth - 1) x hx
    have hitems := run_prettyItems level (depth - 1) xs hxs hread
    refine ⟨_, ?_, .idle _⟩
    rw [prettyChars, List.cons_append, List.cons_append, (Reads.idle ts).run_next rfl]
    show run ⟨.openArray :: ts, .idle⟩ _ = _
    rw [List.append_assoc, run_append_of ((Reads.idle _).run_newLine _), run_append_of hs, hitems]
    simp [Json.tokens]
  | depth, .object ((k, x) :: ms), h => by
    obtain ⟨hx, hms⟩ := Bool.and_eq_true_iff.1 (Bool.and_eq_true_iff.1 h).2
    obtain ⟨s, hs, hread⟩ := run_prettyMember (run_prettyChars
      (.colon :: .string (some k) :: .openObject :: ts) (level + 1) (depth - 1) x hx)
    have hmembers := run_prettyMembers level (depth - 1) ms hms hread
    refine ⟨_, ?_, .idle _⟩
    rw [prettyChars, List.cons_append, List.cons_append, List.cons_append,
      (Reads.idle ts).run_next rfl]
    show run ⟨.openObject :: ts, .idle⟩ _ = _
    rw [run_append_of hs, hmembers]
    simp [Json.tokens]

theorem run_prettyItems (level : Nat) :
    ∀ (depth : Nat) (xs : List Json), itemsAreText depth xs = true →
      ∀ {s : Lexer} {ts : List Token}, s.Reads ts →
        s.run (prettyItems level xs) = some ⟨(itemTokens xs).reverse ++ ts, .idle⟩
  | _, [], _, s, ts, hs => by
    rw [prettyItems, run_append_of (hs.run_newLine level)]
    rfl
  | depth, x :: xs, h, s, ts, hs => by
    obtain ⟨hx, hxs⟩ := Bool.and_eq_true_iff.1 h
    obtain ⟨t, ht, hread⟩ := run_prettyChars (.comma :: ts) (level + 1) depth x hx
    rw [prettyItems, List.cons_append, List.cons_append, hs.run_next rfl]
    show run ⟨.comma :: ts, .idle⟩ _ = _
    rw [List.append_assoc, run_append_of ((Reads.idle _).run_newLine _), run_append_of ht,
      run_prettyItems level depth xs hxs hread]
    simp [itemTokens]

theorem run_prettyMembers (level : Nat) :
    ∀ (depth : Nat) (ms : List (String × Json)), membersAreText depth ms = true →
      ∀ {s : Lexer} {ts : List Token}, s.Reads ts →
        s.run (prettyMembers level ms) = some ⟨(memberTokens ms).reverse ++ ts, .idle⟩
  | _, [], _, s, ts, hs => by
    rw [prettyMembers, run_append_of (hs.run_newLine level)]
    rfl
  | depth, (k, x) :: ms, h, s, ts, hs => by
    obtain ⟨hx, hms⟩ := Bool.and_eq_true_iff.1 h
    obtain ⟨t, ht, hread⟩ := run_prettyMember (run_prettyChars
      (.colon :: .string (some k) :: .comma :: ts) (level + 1) depth x hx)
    rw [prettyMembers, List.cons_append, List.cons_append, List.cons_append, hs.run_next rfl]
    show run ⟨.comma :: ts, .idle⟩ _ = _
    rw [run_append_of ht, run_prettyMembers level depth ms hms hread]
    simp [memberTokens]

end

end Lexer

/-- **The tokens of a written document.** -/
theorem tokens?_prettyChars {depth : Nat} {x : Json} (hx : x.isText depth = true) :
    tokens? (x.prettyChars 0) = some x.tokens := by
  obtain ⟨s, hs, hread⟩ := Lexer.run_prettyChars [] 0 depth x hx
  show (Lexer.run ⟨[], .idle⟩ (x.prettyChars 0)).bind Lexer.finish = _
  rw [hs, Option.bind_some, hread.finish, List.append_nil, List.reverse_reverse]

end SchemaEvolution.Json
