import SchemaEvolution.Schema.Row

/-!
# Collections

The rows of one kind, in the order in which they were inserted. No two rows share a key: a row
whose key is taken is not inserted, and an update that would give two rows one key fails and
changes nothing.
-/

namespace SchemaEvolution

/-! ## Repeated keys -/

/-- The first key that occurs earlier in the list or in `seen`. -/
def repeatedAfter? {κ : Type} [DecidableEq κ] (seen : List κ) : List κ → Option κ
  | [] => none
  | k :: ks => if k ∈ seen then some k else repeatedAfter? (k :: seen) ks

/-- The first key that occurs earlier in the list. -/
def repeated? {κ : Type} [DecidableEq κ] (ks : List κ) : Option κ :=
  repeatedAfter? [] ks

theorem repeatedAfter?_eq_none_iff {κ : Type} [DecidableEq κ] {seen ks : List κ} :
    repeatedAfter? seen ks = none ↔ ks.Nodup ∧ ∀ k ∈ ks, k ∉ seen := by
  induction ks generalizing seen with
  | nil => simp [repeatedAfter?]
  | cons k ks ih =>
    by_cases h : k ∈ seen
    · simp [repeatedAfter?, h]
    · simp only [repeatedAfter?, h, if_false, ih, List.nodup_cons, List.mem_cons]
      constructor
      · rintro ⟨hn, hk⟩
        refine ⟨⟨fun hm => hk k hm (.inl rfl), hn⟩, ?_⟩
        rintro x (rfl | hx)
        · exact h
        · exact fun hs => hk x hx (.inr hs)
      · rintro ⟨⟨hkn, hn⟩, hk⟩
        refine ⟨hn, fun x hx => ?_⟩
        rintro (rfl | hs)
        · exact hkn hx
        · exact hk x (.inr hx) hs

theorem repeated?_eq_none_iff {κ : Type} [DecidableEq κ] {ks : List κ} :
    repeated? ks = none ↔ ks.Nodup := by
  simp [repeated?, repeatedAfter?_eq_none_iff]

/-! ## Collections -/

/-- Rows of one kind with distinct keys. -/
structure Collection (α : Type) [Row α] where
  rows : List α
  keys_nodup : (rows.map Row.key).Nodup
deriving DecidableEq

namespace Collection

variable {α : Type} [Row α]

def empty : Collection α := ⟨[], by simp⟩

instance : Inhabited (Collection α) := ⟨empty⟩

def get? (c : Collection α) (key : Key) : Option α :=
  c.rows.find? fun row => Row.key row = key

def hasKey (c : Collection α) (key : Key) : Bool :=
  (c.get? key).isSome

theorem hasKey_iff {c : Collection α} {key : Key} :
    c.hasKey key = true ↔ key ∈ c.rows.map Row.key := by
  simp [hasKey, get?]

def size (c : Collection α) : Nat :=
  c.rows.length

/-- Inserts a row after the others, unless its key is taken. -/
def insert (c : Collection α) (row : α) : Collection α :=
  if h : c.hasKey (Row.key row) then c
  else
    ⟨c.rows ++ [row], by
      rw [hasKey_iff] at h
      rw [List.map_append, List.nodup_append]
      refine ⟨c.keys_nodup, by simp, ?_⟩
      intro a ha b hb hab
      simp only [List.map_cons, List.map_nil, List.mem_singleton] at hb
      exact h (hb ▸ hab ▸ ha)⟩

/-- The collection of rows inserted one after the other. -/
def ofRows (rows : List α) : Collection α :=
  rows.foldl insert empty

/-- Replaces every selected row by its new form, all at once, and lists the new forms. Fails with
the first key that two rows would share. -/
def update (c : Collection α) (change : α → α) (selects : α → Bool) :
    Except Key (Collection α × List α) :=
  let rows := c.rows.map fun row => if selects row then change row else row
  match h : repeated? (rows.map Row.key) with
  | some key => .error key
  | none => .ok (⟨rows, repeated?_eq_none_iff.1 h⟩, (c.rows.filter selects).map change)

/-- Removes the selected rows, and lists them. -/
def delete (c : Collection α) (selects : α → Bool) : Collection α × List α :=
  (⟨c.rows.filter fun row => !selects row,
    c.keys_nodup.sublist ((List.filter_sublist).map Row.key)⟩, c.rows.filter selects)

/-- Whether two collections hold the same rows, in whatever order. -/
def sameRows [DecidableEq α] (c d : Collection α) : Bool :=
  c.size = d.size && c.rows.all fun row => d.get? (Row.key row) = some row

end Collection

end SchemaEvolution
