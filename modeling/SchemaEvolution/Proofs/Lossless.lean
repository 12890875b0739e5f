import SchemaEvolution.Json.Record
import SchemaEvolution.Proofs.Json.Values

/-!
# Values that come back

A value is written as a document. For the types here, reading the document gives back what was
written (`Lossless`), whether it is read as it stands or after it was gathered, and however the
members of objects are arranged (`Arrangement`): as they were written, or in order, as in the value
of the document.

**Fields are found by name.** A record comes back from any members in which its fields stand once,
each with its value (`LosslessRecord.read?_eq`); what else stands there makes no difference.
-/

namespace SchemaEvolution

open Json

/-! ## Arrangements -/

/-- A way to arrange documents: the members of every object in some order, and nothing else
changed. Objects that have a name twice may be changed in any way. -/
structure Arrangement where
  arrange : Json → Json
  null : arrange .null = .null
  bool : ∀ b, arrange (.bool b) = .bool b
  string : ∀ s, arrange (.string s) = .string s
  array : ∀ xs, arrange (.array xs) = .array (xs.map arrange)
  object : ∀ ms : Members, (ms.map Prod.fst).Nodup →
    ∃ ns : Members, arrange (.object ms) = .object ns ∧ ns.Perm (ms.map fun m => (m.1, arrange m.2))
  ne_null : ∀ x, x ≠ .null → arrange x ≠ .null

namespace Arrangement

/-- Documents as they were written. -/
def written : Arrangement where
  arrange x := x
  null := rfl
  bool _ := rfl
  string _ := rfl
  array xs := by rw [List.map_id']
  object ms _ := ⟨ms, rfl, by rw [List.map_id']⟩
  ne_null _ h := h

/-- Documents with their members in order. -/
def inOrder : Arrangement where
  arrange := Json.sorted
  null := rfl
  bool _ := rfl
  string _ := rfl
  array xs := congrArg Json.array (sortedItems_eq xs)
  object ms h := ⟨sortedMembers [] ms, rfl, sortedMembers_nil_perm h⟩
  ne_null x h := by cases x <;> first | exact absurd rfl h | nofun

/-- The second members are the first ones in some order, each arranged in itself. -/
def Arranges (A : Arrangement) (ms ns : Members) : Prop :=
  ns.Perm (ms.map fun m => (m.1, A.arrange m.2))

variable {A : Arrangement} {ms ns : Members}

theorem exists_arranges (A : Arrangement) (hn : (ms.map Prod.fst).Nodup) :
    ∃ ns, A.arrange (.object ms) = .object ns ∧ A.Arranges ms ns :=
  A.object ms hn

theorem arranges_inOrder (h : (ms.map Prod.fst).Nodup) :
    inOrder.Arranges ms (sortedMembers [] ms) :=
  sortedMembers_nil_perm h

theorem Arranges.map_fst_perm (h : A.Arranges ms ns) :
    (ns.map Prod.fst).Perm (ms.map Prod.fst) := by
  have hperm := h.map Prod.fst
  rwa [List.map_map] at hperm

theorem Arranges.nodup (h : A.Arranges ms ns) (hn : (ms.map Prod.fst).Nodup) :
    (ns.map Prod.fst).Nodup :=
  h.map_fst_perm.nodup_iff.2 hn

/-- **However members are arranged, each is found by its name.** -/
theorem Arranges.find?_eq (h : A.Arranges ms ns) (hn : (ms.map Prod.fst).Nodup) :
    ∀ m ∈ ms, ns.find? m.1 = some (A.arrange m.2) := fun _ hm =>
  lookup_eq_some_of_mem (h.nodup hn)
    (h.mem_iff.2 (List.mem_map_of_mem (f := fun m => (m.1, A.arrange m.2)) hm))

theorem Arranges.find?_tag {tag word : String} (h : A.Arranges ((tag, .string word) :: ms) ns)
    (hn : (((tag, Json.string word) :: ms).map Prod.fst).Nodup) :
    ns.find? tag = some (.string word) := by
  have htag := h.find?_eq hn (tag, .string word) (List.mem_cons_self ..)
  rwa [A.string] at htag

/-- It can be taken off, and the other members stay. -/
theorem Arranges.untagged {tag : String} {x : Json} (h : A.Arranges ((tag, x) :: ms) ns)
    (hn : (((tag, x) :: ms).map Prod.fst).Nodup) :
    A.Arranges ms (ns.filter fun m => m.1 != tag) := by
  have hrest : (ms.map fun m => (m.1, A.arrange m.2)).filter (fun m => m.1 != tag) =
      ms.map fun m => (m.1, A.arrange m.2) := by
    refine List.filter_eq_self.2 (List.forall_mem_map.2 fun m hm => bne_iff_ne.2 fun e => ?_)
    exact (List.nodup_cons.1 hn).1 (List.mem_map.2 ⟨m, hm, e⟩)
  have hperm := h.filter fun m => m.1 != tag
  rwa [List.map_cons, List.filter_cons_of_neg (by simp), hrest] at hperm

end Arrangement

/-! ## What is given for a record -/

/-- The members of an object are what is given for some fields. -/
structure Given.Holds (g : Given) (fields : List String) (ms : Members) : Prop where
  named : g.positional = false
  find? : ∀ f, fields.contains f = true → g.members.find? f = ms.find? f

theorem Members.find?_filter {p : String → Bool} {f : String} (hf : p f = true) (ms : Members) :
    Members.find? (ms.filter fun m => p m.1) f = ms.find? f := by
  induction ms with
  | nil => rfl
  | cons m ms ih =>
    obtain ⟨k, x⟩ := m
    rw [find?] at ih ⊢
    by_cases hk : f = k
    · subst hk
      simp [find?, hf]
    · have hne : (f == k) = false := beq_eq_false_iff_ne.2 hk
      by_cases hp : p k = true <;> simp [find?, hp, List.lookup_cons, hne, ih]

/-- An object without repetitions gives its members for whatever fields are asked for. -/
theorem Given.exists_ofJson? {ms : Members} (hn : (ms.map Prod.fst).Nodup) (fields : List String)
    (reading : Reading) :
    ∃ g : Given, g.Holds fields ms ∧ Given.ofJson? fields reading (.object ms) = some g := by
  let known := ms.filter fun m => fields.contains m.1
  have hknown : (known.map Prod.fst).Nodup := hn.sublist (List.filter_sublist.map _)
  exact ⟨⟨reading, known, false⟩, ⟨rfl, fun f hf => Members.find?_filter hf ms⟩, if_pos hknown⟩

/-- **A record is read from an object without repetitions.** -/
theorem exists_given {α : Type} [Record α] {ms : Members} (hn : (ms.map Prod.fst).Nodup)
    (reading : Reading) :
    ∃ g : Given, g.Holds (Record.fields α) ms ∧
      (JsonForm.read? reading (.object ms) : Option α) = Record.ofGiven? g := by
  obtain ⟨g, hg, hread⟩ := Given.exists_ofJson? hn (Record.fields α) reading
  refine ⟨g, hg, ?_⟩
  show (Given.ofJson? (Record.fields α) reading (.object ms)).bind Record.ofGiven? = _
  rw [hread, Option.bind_some]

/-! ## Values -/

/-- Values that come back from their documents. -/
class Lossless (α : Type) [JsonForm α] where
  /-- How deep the documents nest at most. -/
  depth : Nat
  isText : ∀ {d : Nat}, depth ≤ d → ∀ a : α, (toJson a).isText d = true
  read?_arrange : ∀ (A : Arrangement) (reading : Reading) (a : α),
    JsonForm.read? reading (A.arrange (toJson a)) = some a

attribute [simp] Lossless.read?_arrange

theorem Lossless.read?_sorted {α : Type} [JsonForm α] [Lossless α] (reading : Reading) (a : α) :
    JsonForm.read? reading (toJson a).sorted = some a :=
  Lossless.read?_arrange .inOrder reading a

/-- Values that are never written as null. -/
class NeverNull (α : Type) [JsonForm α] : Prop where
  ne_null : ∀ a : α, toJson a ≠ .null

/-! ## Texts, flags and lists -/

instance : Lossless String where
  depth := 0
  isText _ _ := rfl
  read?_arrange A _ a := by
    show JsonForm.read? _ (A.arrange (.string a)) = _
    rw [A.string]
    rfl

instance : NeverNull String where
  ne_null _ := nofun

instance : Lossless Bool where
  depth := 0
  isText _ _ := rfl
  read?_arrange A _ a := by
    show JsonForm.read? _ (A.arrange (.bool a)) = _
    rw [A.bool]
    rfl

section

variable {α : Type} [JsonForm α]

theorem sorted_list (xs : List α) :
    (toJson xs).sorted = .array (xs.map fun a => (toJson a).sorted) := by
  show Json.array (sortedItems (xs.map toJson)) = _
  rw [sortedItems_eq, List.map_map]
  rfl

theorem read?_of_ne_null {x : Json} (h : x ≠ .null) (reading : Reading) :
    (JsonForm.read? reading x : Option (Option α)) = (JsonForm.read? reading x).map some := by
  cases x with
  | null => exact absurd rfl h
  | _ => rfl

variable [Lossless α]

instance : Lossless (List α) where
  depth := Lossless.depth α + 1
  isText {d} hd xs := by
    have hitems : itemsAreText (d - 1) (xs.map toJson) = true := by
      induction xs with
      | nil => rfl
      | cons x xs ih => exact Bool.and_eq_true_iff.2 ⟨Lossless.isText (by omega) x, ih⟩
    exact Bool.and_eq_true_iff.2 ⟨decide_eq_true (by omega), hitems⟩
  read?_arrange A reading xs := by
    show JsonForm.read? reading (A.arrange (.array (xs.map toJson))) = some xs
    rw [A.array, List.map_map]
    show (xs.map fun a => A.arrange (toJson a)).mapM (JsonForm.read? reading) = some xs
    induction xs with
    | nil => rfl
    | cons x xs ih => simp [ih]

instance [NeverNull α] : Lossless (Option α) where
  depth := Lossless.depth α
  isText hd x := by
    cases x with
    | none => rfl
    | some a => exact Lossless.isText hd a
  read?_arrange A reading x := by
    cases x with
    | none =>
      show JsonForm.read? reading (A.arrange .null) = _
      rw [A.null]
      rfl
    | some a =>
      show JsonForm.read? reading (A.arrange (toJson a)) = _
      rw [read?_of_ne_null (A.ne_null _ (NeverNull.ne_null a)), Lossless.read?_arrange,
        Option.map_some]

end

/-! ## Words -/

/-- A vocabulary in which every word stands for one value. -/
class LawfulWord (α : Type) [Word α] : Prop where
  ofText?_text : ∀ a : α, Word.ofText? (Word.text a) = some a

attribute [simp] LawfulWord.ofText?_text

section

variable {α : Type} [Word α]

instance (priority := low) [LawfulWord α] : Lossless α where
  depth := 0
  isText _ _ := rfl
  read?_arrange A _ a := by
    show JsonForm.read? _ (A.arrange (.string (Word.text a))) = _
    rw [A.string]
    exact LawfulWord.ofText?_text a

instance (priority := low) : NeverNull α where
  ne_null _ := nofun

end

/-! ## Records -/

/-- A record that comes back from its fields. -/
class LosslessRecord (α : Type) [Record α] where
  /-- How deep the documents of fields nest at most. -/
  depth : Nat
  keys : ∀ a : α, (toMembers a).map Prod.fst = Record.fields α
  nodup : (Record.fields α).Nodup
  areText : ∀ {d : Nat}, depth ≤ d → ∀ a : α, membersAreText d (toMembers a) = true
  ofGiven?_eq : ∀ {A : Arrangement} (g : Given) (a : α),
    (∀ m ∈ toMembers a, g.members.find? m.1 = some (A.arrange m.2)) → Record.ofGiven? g = some a

namespace LosslessRecord

variable {α : Type} [Record α] [LosslessRecord α] {A : Arrangement} {ms : Members} {a : α}

theorem nodup_toMembers (a : α) : ((toMembers a).map Prod.fst).Nodup := by
  rw [keys]
  exact nodup

/-- **A record comes back from members among which its fields are.** -/
theorem read?_eq (hn : (ms.map Prod.fst).Nodup)
    (h : ∀ m ∈ toMembers a, ms.find? m.1 = some (A.arrange m.2)) (reading : Reading) :
    (JsonForm.read? reading (.object ms) : Option α) = some a := by
  obtain ⟨g, hg, hread⟩ := exists_given (α := α) hn reading
  rw [hread]
  refine ofGiven?_eq (A := A) g a fun m hm => ?_
  have hfield : m.1 ∈ Record.fields α := keys a ▸ List.mem_map_of_mem hm
  rw [hg.find? m.1 (List.contains_iff_mem.2 hfield), h m hm]

end LosslessRecord

instance (priority := low) {α : Type} [Record α] [LosslessRecord α] : Lossless α where
  depth := LosslessRecord.depth α + 1
  isText hd a := Bool.and_eq_true_iff.2
    ⟨decide_eq_true (by omega), LosslessRecord.areText (by omega) a⟩
  read?_arrange A reading a := by
    have hn := LosslessRecord.nodup_toMembers a
    obtain ⟨ms, hms, h⟩ := A.exists_arranges hn
    show JsonForm.read? reading (A.arrange (.object (toMembers a))) = some a
    rw [hms]
    exact LosslessRecord.read?_eq (h.nodup hn) (h.find?_eq hn) reading

instance (priority := low) {α : Type} [Record α] : NeverNull α where
  ne_null _ := nofun

end SchemaEvolution
