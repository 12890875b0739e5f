import SchemaEvolution.Json.Number

/-!
# Documents

A JSON document as it is written: literals of numbers are kept, and the members of an object
stand in the order of the text, repeated keys included. A string or a key with an escape that
denotes no character (half of a surrogate pair) is within the grammar but has no value; such a
string, and an object with such a key, is `unreadable`.

`value?` gives a document its value: keys in order and without repetition, the last member of a
key winning. A document has a value if every number and string in it has one and its arrays and
objects nest at most `maxDepth` deep.
-/

namespace SchemaEvolution

/-- A JSON document. -/
inductive Json where
  | null
  | bool (b : Bool)
  | number (n : Numeral)
  | string (s : String)
  | array (items : List Json)
  | object (members : List (String × Json))
  | unreadable
deriving Repr, Inhabited

namespace Json

/-- How deep the arrays and objects of a document with a value nest. -/
def maxDepth : Nat := 127

mutual

/-- Whether a document has a value, its arrays and objects nesting at most `depth` deep. -/
def hasValue (depth : Nat) : Json → Bool
  | .number n => n.value?.isSome
  | .array items => 0 < depth && itemsHaveValue (depth - 1) items
  | .object members => 0 < depth && membersHaveValue (depth - 1) members
  | .unreadable => false
  | _ => true

def itemsHaveValue (depth : Nat) : List Json → Bool
  | [] => true
  | x :: xs => hasValue depth x && itemsHaveValue depth xs

def membersHaveValue (depth : Nat) : List (String × Json) → Bool
  | [] => true
  | (_, x) :: ms => hasValue depth x && membersHaveValue depth ms

end

/-- Puts a member in its place among members with ascending keys; it replaces one of its key. -/
def putMember (key : String) (x : Json) : List (String × Json) → List (String × Json)
  | [] => [(key, x)]
  | (k, y) :: ms =>
    if key < k then (key, x) :: (k, y) :: ms
    else if key = k then (key, x) :: ms
    else (k, y) :: putMember key x ms

mutual

/-- The document with ascending keys, the last member of each key winning. -/
def sorted : Json → Json
  | .array items => .array (sortedItems items)
  | .object members => .object (sortedMembers [] members)
  | x => x

def sortedItems : List Json → List Json
  | [] => []
  | x :: xs => sorted x :: sortedItems xs

/-- The members of an object, put one after the other into `done`. -/
def sortedMembers (done : List (String × Json)) : List (String × Json) → List (String × Json)
  | [] => done
  | (k, x) :: ms => sortedMembers (putMember k (sorted x) done) ms

end

/-- The value of a document. -/
def value? (x : Json) : Option Json :=
  if x.hasValue maxDepth then some x.sorted else none

mutual

/-- Whether two values are the same. -/
def same : Json → Json → Bool
  | .null, .null => true
  | .bool a, .bool b => a == b
  | .number m, .number n =>
    match m.value?, n.value? with
    | some a, some b => a.same b
    | _, _ => false
  | .string s, .string t => s == t
  | .array xs, .array ys => sameItems xs ys
  | .object ms, .object ns => sameMembers ms ns
  | _, _ => false

def sameItems : List Json → List Json → Bool
  | [], [] => true
  | x :: xs, y :: ys => same x y && sameItems xs ys
  | _, _ => false

/-- Whether two objects hold the same members in the same order. -/
def sameMembers : List (String × Json) → List (String × Json) → Bool
  | [], [] => true
  | (k, x) :: ms, (l, y) :: ns => k == l && same x y && sameMembers ms ns
  | _, _ => false

end

end Json

end SchemaEvolution
