import SchemaEvolution.Proofs.Shapes

/-!
# Rows that come back

Every row comes back from its document, with or without the tag of its kind, and its document has
the shape that is asked of rows of its kind (`LosslessRow`).

**Rows of any kind** are told apart by their tag, which is no field of any of them. So they come
back too (`Lossless Entity`), and their documents pass the examination of rows
(`Shape.rowsFaults_toJson`).
-/

namespace SchemaEvolution

open Json Shape

/-! ## Words -/

instance : LawfulWord Kind := ⟨fun w => by cases w <;> rfl⟩
instance : LawfulWord ValueKind := ⟨fun w => by cases w <;> rfl⟩
instance : LawfulWord Storage := ⟨fun w => by cases w <;> rfl⟩
instance : LawfulWord ReferentialAction := ⟨fun w => by cases w <;> rfl⟩
instance : LawfulWord IndexStructure := ⟨fun w => by cases w <;> rfl⟩
instance : LawfulWord BuildAlgorithm := ⟨fun w => by cases w <;> rfl⟩
instance : LawfulWord BuildLock := ⟨fun w => by cases w <;> rfl⟩
instance : LawfulWord ViewAlgorithm := ⟨fun w => by cases w <;> rfl⟩
instance : LawfulWord SqlSecurity := ⟨fun w => by cases w <;> rfl⟩
instance : LawfulWord CheckOption := ⟨fun w => by cases w <;> rfl⟩

/-! ## Parts of rows -/

instance : LosslessRecord DefaultValue where
  depth := 0
  keys _ := rfl
  nodup := by decide
  areText _ _ := rfl
  ofGiven?_eq g d h := by
    simp only [toMembers, List.forall_mem_cons] at h
    simp [Record.ofGiven?, Given.required?, h]

theorem suits_defaultValue : Suits DefaultValue (all [string "value", word ValueKind "type"]) := by
  intro ms d h
  simp only [toMembers, List.forall_mem_cons] at h
  obtain ⟨value, kind, -⟩ := h
  exact passes_cons (passes_string value) (passes_cons (passes_word kind) passes_nil)

instance : LosslessRecord Generated where
  depth := 0
  keys _ := rfl
  nodup := by decide
  areText _ _ := rfl
  ofGiven?_eq g d h := by
    simp only [toMembers, List.forall_mem_cons] at h
    simp [Record.ofGiven?, Given.required?, h]

theorem suits_generated : Suits Generated (all [word Storage "type", string "as"]) := by
  intro ms g h
  simp only [toMembers, List.forall_mem_cons] at h
  obtain ⟨storage, expression, -⟩ := h
  exact passes_cons (passes_word storage) (passes_cons (passes_string expression) passes_nil)

instance : LosslessRecord IndexPart where
  depth := 0
  keys _ := rfl
  nodup := by decide
  areText _ _ := rfl
  ofGiven?_eq g p h := by
    simp only [toMembers, List.forall_mem_cons] at h
    cases p <;> simp [Record.ofGiven?, Given.required?, h, IndexPart.value, IndexPart.isExpression]

theorem suits_indexPart : Suits IndexPart (all [string "value", boolean "isExpression"]) := by
  intro ms p h
  simp only [toMembers, List.forall_mem_cons] at h
  obtain ⟨value, isExpression, -⟩ := h
  exact passes_cons (passes_string value) (passes_cons (passes_boolean isExpression) passes_nil)

/-! ## Rows -/

/-- A row that comes back from its document, whose shape is the one that is asked of its kind. The
tag of the kind is not mistaken for a field. -/
class LosslessRow (α : Type) [Row α] extends LosslessRecord α where
  untagged : Entity.tagField ∉ Record.fields α
  suits : Suits α (ofKind (Row.kind α))

instance : LosslessRow Table where
  depth := 0
  keys _ := rfl
  nodup := by decide
  areText _ _ := rfl
  ofGiven?_eq g t h := by
    simp only [toMembers, List.forall_mem_cons] at h
    simp [Record.ofGiven?, Given.required?, h]
  untagged := by decide
  suits ms t h := by
    simp only [toMembers, List.forall_mem_cons] at h
    exact passes_string h.1

instance : LosslessRow Column where
  depth := 1
  keys _ := rfl
  nodup := by decide
  areText hd c := by
    simp only [toMembers, membersAreText, Bool.and_eq_true]
    and_intros <;> first | trivial | exact Lossless.isText (Nat.le_trans (by decide) hd) _
  ofGiven?_eq g c h := by
    simp only [toMembers, List.forall_mem_cons] at h
    simp [Record.ofGiven?, Given.required?, Given.optional?, h]
  untagged := by decide
  suits ms c h := by
    simp only [toMembers, List.forall_mem_cons] at h
    obtain ⟨table, name, type, notNull, default, autoIncrement, onUpdateNow, charSet, collation,
      generated, -⟩ := h
    exact passes_cons (passes_string table) <| passes_cons (passes_string name) <|
      passes_cons (passes_string type) <| passes_cons (passes_boolean notNull) <|
      passes_cons (passes_optionalBoolean autoIncrement) <|
      passes_cons (passes_optionalBoolean onUpdateNow) <|
      passes_cons (passes_optionalString charSet) <|
      passes_cons (passes_optionalString collation) <|
      passes_cons (passes_optionalObject suits_defaultValue default) <|
      passes_cons (passes_optionalObject suits_generated generated) passes_nil

instance : LosslessRow PrimaryKey where
  depth := 1
  keys _ := rfl
  nodup := by decide
  areText hd k := by
    simp only [toMembers, membersAreText, Bool.and_eq_true]
    and_intros <;> first | trivial | exact Lossless.isText (Nat.le_trans (by decide) hd) _
  ofGiven?_eq g k h := by
    simp only [toMembers, List.forall_mem_cons] at h
    simp [Record.ofGiven?, Given.required?, Given.optional?, h]
  untagged := by decide
  suits ms k h := by
    simp only [toMembers, List.forall_mem_cons] at h
    obtain ⟨table, name, nameExplicit, columns, -⟩ := h
    exact passes_cons (passes_string table) <| passes_cons (passes_string name) <|
      passes_cons (passes_optionalBoolean nameExplicit) <|
      passes_cons (passes_strings columns) passes_nil

instance : LosslessRow ForeignKey where
  depth := 1
  keys _ := rfl
  nodup := by decide
  areText hd k := by
    simp only [toMembers, membersAreText, Bool.and_eq_true]
    and_intros <;> first | trivial | exact Lossless.isText (Nat.le_trans (by decide) hd) _
  ofGiven?_eq g k h := by
    simp only [toMembers, List.forall_mem_cons] at h
    simp [Record.ofGiven?, Given.required?, Given.optional?, h]
  untagged := by decide
  suits ms k h := by
    simp only [toMembers, List.forall_mem_cons] at h
    obtain ⟨table, name, nameExplicit, columns, target, targetColumns, onUpdate, onDelete, -⟩ := h
    exact passes_cons (passes_string table) <| passes_cons (passes_string name) <|
      passes_cons (passes_optionalBoolean nameExplicit) <| passes_cons (passes_strings columns) <|
      passes_cons (passes_string target) <| passes_cons (passes_strings targetColumns) <|
      passes_cons (passes_optionalWord onUpdate) <|
      passes_cons (passes_optionalWord onDelete) passes_nil

instance : LosslessRow Index where
  depth := 2
  keys _ := rfl
  nodup := by decide
  areText hd i := by
    simp only [toMembers, membersAreText, Bool.and_eq_true]
    and_intros <;> first | trivial | exact Lossless.isText (Nat.le_trans (by decide) hd) _
  ofGiven?_eq g i h := by
    simp only [toMembers, List.forall_mem_cons] at h
    simp [Record.ofGiven?, Given.required?, Given.optional?, h]
  untagged := by decide
  suits ms i h := by
    simp only [toMembers, List.forall_mem_cons] at h
    obtain ⟨table, name, nameExplicit, parts, isUnique, dataStructure, algorithm, lock, -⟩ := h
    exact passes_cons (passes_string table) <| passes_cons (passes_string name) <|
      passes_cons (passes_optionalBoolean nameExplicit) <| passes_cons (passes_boolean isUnique) <|
      passes_cons (passes_optionalWord_option dataStructure) <|
      passes_cons (passes_optionalWord_option algorithm) <|
      passes_cons (passes_optionalWord_option lock) <|
      passes_cons (passes_objects suits_indexPart parts) passes_nil

instance : LosslessRow Check where
  depth := 0
  keys _ := rfl
  nodup := by decide
  areText _ _ := rfl
  ofGiven?_eq g k h := by
    simp only [toMembers, List.forall_mem_cons] at h
    simp [Record.ofGiven?, Given.required?, Given.optional?, h]
  untagged := by decide
  suits ms k h := by
    simp only [toMembers, List.forall_mem_cons] at h
    obtain ⟨table, name, nameExplicit, value, -⟩ := h
    exact passes_cons (passes_string table) <| passes_cons (passes_string name) <|
      passes_cons (passes_optionalBoolean nameExplicit) <|
      passes_cons (passes_string value) passes_nil

instance : LosslessRow View where
  depth := 0
  keys _ := rfl
  nodup := by decide
  areText hd v := by
    simp only [toMembers, membersAreText, Bool.and_eq_true]
    and_intros <;> first | trivial | exact Lossless.isText (Nat.le_trans (by decide) hd) _
  ofGiven?_eq g v h := by
    simp only [toMembers, List.forall_mem_cons] at h
    simp [Record.ofGiven?, Given.required?, Given.optional?, h]
  untagged := by decide
  suits ms v h := by
    simp only [toMembers, List.forall_mem_cons] at h
    obtain ⟨name, definition, algorithm, sqlSecurity, withCheckOption, -⟩ := h
    exact passes_cons (passes_string name) <| passes_cons (passes_string definition) <|
      passes_cons (passes_optionalWord algorithm) <|
      passes_cons (passes_optionalWord sqlSecurity) <|
      passes_cons (passes_optionalWord_option withCheckOption) passes_nil

instance : LosslessRow ViewColumn where
  depth := 0
  keys _ := rfl
  nodup := by decide
  areText _ _ := rfl
  ofGiven?_eq g c h := by
    simp only [toMembers, List.forall_mem_cons] at h
    simp [Record.ofGiven?, Given.required?, h]
  untagged := by decide
  suits ms c h := by
    simp only [toMembers, List.forall_mem_cons] at h
    obtain ⟨view, name, type, notNull, -⟩ := h
    exact passes_cons (passes_string view) <| passes_cons (passes_string name) <|
      passes_cons (passes_string type) <| passes_cons (passes_boolean notNull) passes_nil

/-! ## Rows of any kind -/

section

variable {α : Type} [Row α] [LosslessRow α]

/-- The members of a row with the tag of its kind in front. -/
def taggedMembers (row : α) : Members :=
  (Entity.tagField, toJson (Row.kind α)) :: toMembers row

theorem nodup_taggedMembers (row : α) : ((taggedMembers row).map Prod.fst).Nodup := by
  rw [taggedMembers, List.map_cons, LosslessRecord.keys]
  exact List.nodup_cons.2 ⟨LosslessRow.untagged, LosslessRecord.nodup⟩

variable {A : Arrangement} {ms : Members} {row : α}

theorem find?_tag (h : A.Arranges (taggedMembers row) ms) :
    ms.find? Entity.tagField = some (.string (Word.text (Row.kind α))) :=
  h.find?_tag (nodup_taggedMembers row)

theorem find?_tagged (h : A.Arranges (taggedMembers row) ms) :
    ∀ m ∈ toMembers row, ms.find? m.1 = some (A.arrange m.2) :=
  fun m hm => h.find?_eq (nodup_taggedMembers row) m (List.mem_cons_of_mem _ hm)

theorem read?_untagged (h : A.Arranges (taggedMembers row) ms) :
    JsonForm.read? .gathered (.object (ms.filter fun m => m.1 != Entity.tagField)) = some row := by
  have hn := nodup_taggedMembers row
  have hrest := h.untagged hn
  exact LosslessRecord.read?_eq (hrest.nodup (List.nodup_cons.1 hn).2)
    (hrest.find?_eq (List.nodup_cons.1 hn).2) _

theorem rowFaults_taggedMembers (path : String) (row : α) :
    rowFaults path (.object (sortedMembers [] (taggedMembers row))) = [] := by
  have hsorted := Arrangement.arranges_inOrder (nodup_taggedMembers row)
  have hkind : kind? (sortedMembers [] (taggedMembers row)) = some (Row.kind α) := by
    rw [kind?, find?_tag hsorted]
    exact LawfulWord.ofText?_text _
  rw [rowFaults, hkind]
  exact LosslessRow.suits _ row (find?_tagged hsorted) path

theorem isText_taggedMembers {d : Nat} (h : LosslessRecord.depth α < d) (row : α) :
    (Json.object (taggedMembers row)).isText d = true :=
  Bool.and_eq_true_iff.2 ⟨decide_eq_true (by omega), LosslessRecord.areText (by omega) row⟩

theorem read?_taggedMembers {toEntity : α → Entity}
    (hkind : ∀ x, Entity.ofRow? x (Row.kind α) = (JsonForm.read? .gathered x).map toEntity)
    (A : Arrangement) (reading : Reading) (row : α) :
    JsonForm.read? reading (A.arrange (.object (taggedMembers row))) = some (toEntity row) := by
  obtain ⟨ms, hms, h⟩ := A.exists_arranges (nodup_taggedMembers row)
  have htag : JsonForm.read? reading (.object ms) =
      Entity.ofRow? (.object (ms.filter fun m => m.1 != Entity.tagField)) (Row.kind α) := by
    simp only [JsonForm.read?, find?_tag h]
    simp [ofJson?, JsonForm.read?]
  rw [hms, htag, hkind, read?_untagged h, Option.map_some]

end

instance : Lossless Entity where
  depth := 3
  isText hd e := by
    cases e <;> exact isText_taggedMembers (Nat.lt_of_lt_of_le (by decide) hd) _
  read?_arrange A reading e := by
    cases e <;> exact read?_taggedMembers (fun _ => rfl) A reading _

namespace Shape

/-- **Every row has the shape that is asked of it.** -/
theorem rowFaults_toJson (path : String) (e : Entity) : rowFaults path (toJson e).sorted = [] := by
  cases e <;> exact rowFaults_taggedMembers path _

theorem rowsFaults_toJson (path : String) (es : List Entity) :
    rowsFaults path (es.map fun e => (toJson e).sorted) = [] :=
  items_eq_nil (fun e path => rowFaults_toJson path e) es

end Shape

end SchemaEvolution
