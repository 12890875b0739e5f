import SchemaEvolution.Proofs.Json.Lexing

/-!
# Reading a written document

The reader puts a document together again from its tokens: **wherever a value is expected, the
tokens of a document make it up** (`Reader.run_tokens`). So the text of a document reads as that
document (`Json.ofString?_pretty`).
-/

namespace SchemaEvolution.Json

namespace Reader

/-- Takes one token after the other. -/
def run (s : State) (ts : List Token) : Option State :=
  ts.foldlM step s

variable {s t : State} {ts us : List Token}

theorem run_append_of (h : run s ts = some t) : run s (ts ++ us) = run t us := by
  have happend : run s (ts ++ us) = (run s ts).bind (run · us) := List.foldlM_append
  rw [happend, h]
  rfl

/-- Members of an open object, as they are gathered. -/
def gathered (ms : List (String × Json)) : Gathered :=
  (ms.map fun m => (some m.1, m.2)).reverse

theorem closeObject_gathered (ms : List (String × Json)) :
    closeObject (gathered ms) = .object ms := by
  have hkeys : (ms.map fun m => (some m.1, m.2)).mapM
      (fun m : Option String × Json => m.1.map fun k => (k, m.2)) = some ms := by
    induction ms with
    | nil => rfl
    | cons m ms ih => simp [ih]
  rw [closeObject, gathered, List.reverse_reverse, hkeys]

theorem gathered_append (ms : List (String × Json)) (k : String) (x : Json) :
    gathered (ms ++ [(k, x)]) = (some k, x) :: gathered ms := by
  simp [gathered]

mutual

/-- **The tokens of a document make it up**, wherever a value is expected. -/
theorem run_tokens (stack : List Frame) (opened : Bool) :
    ∀ x : Json, run (.value stack opened) x.tokens = some (.done stack x)
  | .null => rfl
  | .bool _ => rfl
  | .number _ => rfl
  | .string _ => rfl
  | .unreadable => rfl
  | .array [] => rfl
  | .object [] => rfl
  | .array (x :: xs) => by
    rw [tokens, List.cons_append]
    show run (.value (.array [] :: stack) true) (x.tokens ++ itemTokens xs) = _
    rw [run_append_of (run_tokens (.array [] :: stack) true x), run_itemTokens stack [] x xs]
    rfl
  | .object ((k, x) :: ms) => by
    rw [tokens, List.cons_append, List.cons_append, List.cons_append]
    show run (.value (.object (gathered []) (some k) :: stack) false)
      (x.tokens ++ memberTokens ms) = _
    rw [run_append_of (run_tokens (.object (gathered []) (some k) :: stack) false x),
      run_memberTokens stack [] k x ms]
    rfl

/-- The other items follow the last one that has been read. -/
theorem run_itemTokens (stack : List Frame) (done : List Json) (x : Json) :
    ∀ xs : List Json, run (.done (.array done :: stack) x) (itemTokens xs) =
      some (.done stack (.array (done.reverse ++ x :: xs)))
  | [] => by
    show some (State.done stack (.array (x :: done).reverse)) = _
    rw [List.reverse_cons]
  | y :: ys => by
    rw [itemTokens, List.cons_append]
    show run (.value (.array (x :: done) :: stack) false) (y.tokens ++ itemTokens ys) = _
    rw [run_append_of (run_tokens (.array (x :: done) :: stack) false y),
      run_itemTokens stack (x :: done) y ys, List.reverse_cons, List.append_assoc]
    rfl

theorem run_memberTokens (stack : List Frame) (done : List (String × Json)) (k : String)
    (x : Json) :
    ∀ ms : List (String × Json),
      run (.done (.object (gathered done) (some k) :: stack) x) (memberTokens ms) =
        some (.done stack (.object (done ++ (k, x) :: ms)))
  | [] => by
    show some (State.done stack (closeObject ((some k, x) :: gathered done))) = _
    rw [← gathered_append, closeObject_gathered]
  | (l, y) :: ms => by
    rw [memberTokens, List.cons_append, List.cons_append, List.cons_append]
    show run (.value (.object ((some k, x) :: gathered done) (some l) :: stack) false)
      (y.tokens ++ memberTokens ms) = _
    rw [← gathered_append,
      run_append_of (run_tokens (.object (gathered (done ++ [(k, x)])) (some l) :: stack) false y),
      run_memberTokens stack (done ++ [(k, x)]) l y ms, List.append_assoc]
    rfl

end

end Reader

/-- **The text of a document reads as that document.** -/
theorem ofString?_pretty {depth : Nat} {x : Json} (hx : x.isText depth = true) :
    ofString? x.pretty = some x := by
  have hread : (x.tokens.foldlM Reader.step (.value [] false)).bind Reader.finish = some x := by
    show (Reader.run (.value [] false) x.tokens).bind Reader.finish = _
    rw [Reader.run_tokens]
    rfl
  rw [ofString?, pretty, String.toList_ofList, ofChars?, tokens?_prettyChars hx, Option.bind_some,
    hread]

end SchemaEvolution.Json
