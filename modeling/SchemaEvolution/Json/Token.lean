import SchemaEvolution.Json.Basic

/-!
# Tokens of a document

The lexer is an automaton that takes one character at a time: `Lexer.step`. Between tokens it is
`idle`; a run of letters, digits and signs gathers in a `word`, which is a name or a number
literal; a string gathers in `text`, with the states `escape` and `hex` inside an escape. All
gathered lists are in reverse.
-/

namespace SchemaEvolution.Json

open Text

/-- The tokens of the grammar. A string whose escapes denote no text is `none`. -/
inductive Token where
  | openArray
  | closeArray
  | openObject
  | closeObject
  | comma
  | colon
  | null
  | bool (b : Bool)
  | number (n : Numeral)
  | string (s : Option String)

/-! ## Number literals -/

/-- Digits, of which there is at least one, and what follows them. -/
def someDigits? (cs : List Char) : Option (List Char × List Char) :=
  match cs.takeWhile Char.isDigit with
  | [] => none
  | ds => some (ds, cs.dropWhile Char.isDigit)

/-- The whole part of a literal, which is a single zero or starts with another digit. -/
def whole? (cs : List Char) : Option (List Char × List Char) :=
  match cs with
  | '0' :: r => some (['0'], r)
  | _ => someDigits? cs

/-- The fraction of a literal, if it has one. -/
def fraction? (cs : List Char) : Option (List Char × List Char) :=
  match cs with
  | '.' :: r => someDigits? r
  | _ => some ([], cs)

/-- The exponent that ends a literal, if it has one. -/
def exponent? : List Char → Option (Option Int)
  | [] => some none
  | c :: r =>
    if c = 'e' ∨ c = 'E' then
      let (negative, ds) := match r with
        | '-' :: ds => (true, ds)
        | '+' :: ds => (false, ds)
        | ds => (false, ds)
      match someDigits? ds with
      | some (ds, []) =>
        let e : Int := digitsValue ds
        some (some (if negative then -e else e))
      | _ => none
    else none

/-- Reads a number literal. -/
def numeral? (cs : List Char) : Option Numeral := do
  let (negative, cs) := match cs with
    | '-' :: r => (true, r)
    | _ => (false, cs)
  let (whole, cs) ← whole? cs
  let (fraction, cs) ← fraction? cs
  let exponent ← exponent? cs
  return ⟨negative, whole, fraction, exponent⟩

/-- The token of a run of word characters. -/
def Token.ofWord? (cs : List Char) : Option Token :=
  if cs = "null".toList then some .null
  else if cs = "true".toList then some (.bool true)
  else if cs = "false".toList then some (.bool false)
  else (numeral? cs).map .number

/-! ## Strings -/

/-- A part of a string: a character, or the code unit of a hexadecimal escape. -/
inductive Piece where
  | char (c : Char)
  | unit (n : Nat)

/-- The text of a string. A high surrogate joins the low one after it; alone, neither is text. -/
def Piece.text? : List Piece → Option (List Char)
  | [] => some []
  | .char c :: r => (text? r).map (c :: ·)
  | .unit n :: r =>
    if n < 0xD800 ∨ 0xDFFF < n then (text? r).map (Char.ofNat n :: ·)
    else
      match r with
      | .unit m :: r' =>
        if n < 0xDC00 ∧ 0xDC00 ≤ m ∧ m ≤ 0xDFFF then
          (text? r').map (Char.ofNat (0x10000 + (n - 0xD800) * 0x400 + (m - 0xDC00)) :: ·)
        else none
      | _ => none

/-- The character that a letter denotes after a backslash. -/
def escaped? (c : Char) : Option Char :=
  [('"', '"'), ('\\', '\\'), ('/', '/'), ('b', '\x08'), ('f', '\x0c'), ('n', '\n'), ('r', '\r'),
    ('t', '\t')].lookup c

def hexValue? (c : Char) : Option Nat :=
  if c.isDigit then some (c.toNat - 48)
  else if 'a' ≤ c ∧ c ≤ 'f' then some (c.toNat - 87)
  else if 'A' ≤ c ∧ c ≤ 'F' then some (c.toNat - 55)
  else none

/-! ## The automaton -/

/-- Where the lexer stands. -/
inductive Lexer.Place where
  | idle
  | word (cs : List Char)
  | text (ps : List Piece)
  | escape (ps : List Piece)
  | hex (ps : List Piece) (digits : List Nat)

/-- The tokens that are complete, and where the lexer stands. -/
structure Lexer where
  tokens : List Token
  place : Lexer.Place

namespace Lexer

/-- Whether a character belongs to a name or a number literal. -/
def isWordChar (c : Char) : Bool :=
  c.isAlphanum || c == '-' || c == '+' || c == '.'

/-- The token of a punctuation character. -/
def punctuation? (c : Char) : Option Token :=
  if c = '[' then some .openArray
  else if c = ']' then some .closeArray
  else if c = '{' then some .openObject
  else if c = '}' then some .closeObject
  else if c = ',' then some .comma
  else if c = ':' then some .colon
  else none

/-- The step from between two tokens. -/
def stepIdle (tokens : List Token) (c : Char) : Option Lexer :=
  if c = ' ' ∨ c = '\t' ∨ c = '\n' ∨ c = '\r' then some ⟨tokens, .idle⟩
  else if c = '"' then some ⟨tokens, .text []⟩
  else if isWordChar c then some ⟨tokens, .word [c]⟩
  else (punctuation? c).map fun t => ⟨t :: tokens, .idle⟩

/-- Takes one character. -/
def step (s : Lexer) (c : Char) : Option Lexer :=
  match s.place with
  | .idle => stepIdle s.tokens c
  | .word cs =>
    if isWordChar c then some ⟨s.tokens, .word (c :: cs)⟩
    else (Token.ofWord? cs.reverse).bind fun t => stepIdle (t :: s.tokens) c
  | .text ps =>
    if c = '"' then
      some ⟨.string ((Piece.text? ps.reverse).map String.ofList) :: s.tokens, .idle⟩
    else if c = '\\' then some ⟨s.tokens, .escape ps⟩
    else if c.toNat < 0x20 then none
    else some ⟨s.tokens, .text (.char c :: ps)⟩
  | .escape ps =>
    if c = 'u' then some ⟨s.tokens, .hex ps []⟩
    else (escaped? c).map fun d => ⟨s.tokens, .text (.char d :: ps)⟩
  | .hex ps ds =>
    (hexValue? c).map fun d =>
      if ds.length = 3 then
        ⟨s.tokens, .text (.unit ((d :: ds).foldr (fun x n => 16 * n + x) 0) :: ps)⟩
      else ⟨s.tokens, .hex ps (d :: ds)⟩

/-- The tokens of a text that ends here. -/
def finish (s : Lexer) : Option (List Token) :=
  match s.place with
  | .idle => some s.tokens.reverse
  | .word cs => (Token.ofWord? cs.reverse).map fun t => (t :: s.tokens).reverse
  | _ => none

end Lexer

def tokens? (cs : List Char) : Option (List Token) :=
  (cs.foldlM Lexer.step ⟨[], .idle⟩).bind Lexer.finish

end SchemaEvolution.Json
