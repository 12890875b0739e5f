import SchemaEvolution.Text.CaseTable

/-!
# Lower case

The lower-case form of a text. A character maps by itself, with two exceptions of the standard:
a capital I with a dot becomes two characters, and a capital sigma becomes a final sigma where
it ends a word, that is, where a letter stands before it and none after it.
-/

namespace SchemaEvolution.Text

/-- The lower-case form of a character, out of context. -/
def lowerChar (c : Char) : Char :=
  if c.toNat < 0x80 then c.toLower
  else
    match lowerRuns.find? fun r =>
        r.first ≤ c.toNat && c.toNat ≤ r.last && (c.toNat - r.first) % r.step == 0 with
    | some r => Char.ofNat (c.toNat + r.offset).toNat
    | none => c

/-- Whether the first character that case rules do not ignore is a cased one. -/
def startsCased (cs : List Char) : Bool :=
  match cs.dropWhile fun c => inRanges caseIgnorableRanges c.toNat with
  | c :: _ => inRanges casedRanges c.toNat
  | [] => false

/-- The lower-case form of a text that follows `before`, which is given in reverse. -/
def lowercaseAfter (before : List Char) : List Char → List Char
  | [] => []
  | c :: rest =>
    let lower :=
      if c = 'Σ' then [if startsCased before && !startsCased rest then 'ς' else 'σ']
      else if c = 'İ' then ['i', '\u0307']
      else [lowerChar c]
    lower ++ lowercaseAfter (c :: before) rest

def lowercase (cs : List Char) : List Char :=
  lowercaseAfter [] cs

end SchemaEvolution.Text
