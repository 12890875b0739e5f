import SchemaEvolution.Plan.Statement
import SchemaEvolution.Proofs.Json.Reading
import SchemaEvolution.Proofs.LosslessAlterations

/-!
# The log of statements comes back

**Theorem (`Statement.log_comes_back`).** A list of statements of any kinds comes back from its
document, however the members of objects are arranged in it, and so from the value of the document
and from its text. Each statement is an object with the tag of its kind.

The tag is no field of any kind (`Statement.nodup_fields`). So it can be taken off before the fields
are read, and what is left are the members of the statement (`Arrangement.Arranges.untagged`).
-/

namespace SchemaEvolution

open Json

/-! ## Parts of statements -/

instance : LawfulWord ConstraintSort := ⟨fun w => by cases w <;> rfl⟩
instance : LawfulWord StatementKind := ⟨fun w => by cases w <;> rfl⟩

instance : LosslessRecord TableDefinition where
  depth := 4
  keys _ := rfl
  nodup := by decide
  areText hd t := by
    simp only [toMembers, membersAreText, Bool.and_eq_true]
    and_intros <;> first | trivial | exact Lossless.isText (Nat.le_trans (by decide) hd) _
  ofGiven?_eq g t h := by
    simp only [toMembers, List.forall_mem_cons] at h
    simp [Record.ofGiven?, Given.required?, h]

/-! ## Statements -/

namespace Statement

variable {A : Arrangement} {ms : Members} {g : Given} {s : Statement}

/-- The members of a statement, the tag of its kind in front. -/
def taggedMembers (s : Statement) : Members :=
  (tagField, toJson s.kind) :: s.members

theorem map_fst_members (s : Statement) : s.members.map Prod.fst = fields s.kind := by
  cases s <;> rfl

theorem nodup_fields (kind : StatementKind) : (tagField :: fields kind).Nodup := by
  cases kind <;> decide

theorem nodup_taggedMembers (s : Statement) : (s.taggedMembers.map Prod.fst).Nodup := by
  rw [taggedMembers, List.map_cons, map_fst_members]
  exact nodup_fields s.kind

/-- Each kind reads the fields that it writes. -/
theorem ofGiven?_eq (h : ∀ m ∈ s.members, g.members.find? m.1 = some (A.arrange m.2)) :
    ofGiven? g s.kind = some s := by
  cases s
  all_goals
    simp only [members, List.forall_mem_cons] at h
    simp [ofGiven?, kind, Given.required?, h]

/-- A statement comes back from its members, however they are arranged. -/
theorem ofKind?_eq (h : A.Arranges s.members ms) : ofKind? (.object ms) s.kind = some s := by
  have hn : (s.members.map Prod.fst).Nodup := (List.nodup_cons.1 (nodup_taggedMembers s)).2
  obtain ⟨g, hg, hread⟩ := Given.exists_ofJson? (h.nodup hn) (fields s.kind) .gathered
  rw [ofKind?, hread, Option.bind_some]
  refine ofGiven?_eq (A := A) fun m hm => ?_
  have hfield : m.1 ∈ fields s.kind := map_fst_members s ▸ List.mem_map_of_mem hm
  rw [hg.find? m.1 (List.contains_iff_mem.2 hfield), h.find?_eq hn m hm]

theorem find?_tagField (h : A.Arranges s.taggedMembers ms) :
    ms.find? tagField = some (.string s.kind.tag) :=
  h.find?_tag (nodup_taggedMembers s)

theorem read?_taggedMembers (h : A.Arranges s.taggedMembers ms) (reading : Reading) :
    JsonForm.read? reading (.object ms) = some s := by
  have htag : JsonForm.read? reading (.object ms) =
      ofKind? (.object (ms.filter fun m => m.1 != tagField)) s.kind := by
    simp only [JsonForm.read?, find?_tagField h]
    simp [ofJson?, JsonForm.read?]
  rw [htag, ofKind?_eq (h.untagged (nodup_taggedMembers s))]

theorem isText_members {depth : Nat} (hdepth : 5 ≤ depth) (s : Statement) :
    ∀ m ∈ s.members, m.2.isText depth = true := by
  cases s <;> simp only [members, List.forall_mem_cons] <;> and_intros <;>
    first
    | exact fun _ h => absurd h List.not_mem_nil
    | exact Lossless.isText (Nat.le_trans (by decide) hdepth) _

instance : Lossless Statement where
  depth := 6
  isText {depth} hdepth s := by
    have hmembers : ∀ m ∈ s.taggedMembers, m.2.isText (depth - 1) = true :=
      List.forall_mem_cons.2 ⟨rfl, isText_members (by omega) s⟩
    exact Bool.and_eq_true_iff.2 ⟨decide_eq_true (by omega), membersAreText_of_forall hmembers⟩
  read?_arrange A reading s := by
    obtain ⟨ms, hms, h⟩ := A.exists_arranges (nodup_taggedMembers s)
    show JsonForm.read? reading (A.arrange (.object s.taggedMembers)) = some s
    rw [hms, read?_taggedMembers h]

/-- **The log of statements comes back**, however the members of its objects are arranged: from the
document as it was written, from its value and from its text. Each statement is an object with the
tag of its kind. -/
theorem log_comes_back (log : List Statement) :
    (∀ A : Arrangement, ofJson? (A.arrange (toJson log)) = some log) ∧
    (toJson log).value?.bind ofJson? = some log ∧
    (Json.ofString? (toJson log).pretty).bind ofJson? = some log ∧
    ∀ s : Statement, ∀ A : Arrangement, ∃ ms, A.arrange (toJson s) = .object ms ∧
      Members.find? ms tagField = some (.string s.kind.tag) ∧ ofJson? (.object ms) = some s := by
  -- A statement nests six deep at most, and it stands in a list.
  have htext : (toJson log).isText 7 = true := Lossless.isText (Nat.le_refl 7) log
  have hread (A : Arrangement) : ofJson? (A.arrange (toJson log)) = some log :=
    Lossless.read?_arrange A .direct log
  refine ⟨hread, ?_, ?_, fun s A => ?_⟩
  · rw [value?_eq htext (by decide), Option.bind_some]
    exact hread .inOrder
  · rw [ofString?_pretty htext, Option.bind_some]
    exact hread .written
  · obtain ⟨ms, hms, h⟩ := A.exists_arranges (nodup_taggedMembers s)
    exact ⟨ms, hms, find?_tagField h, read?_taggedMembers h .direct⟩

end Statement

end SchemaEvolution
