import SchemaEvolution.Proofs.LosslessRows
import SchemaEvolution.Proofs.ReadableFields
import SchemaEvolution.Schema.Load

/-!
# Rows of the right shape are read

The fields of a row that pass their examinations are read, so a row of the right shape is read.
There is one exception: two words of foreign keys and two of views have a default, and **null passes
there although it is not read** (`Shape.hasLaxNull`).

**So the shape decides what is read** (`Catalog.shape_decides_reading`): rows of the right shape are
loaded or refused for what is wrong with them, unless one of them has such a null.
-/

namespace SchemaEvolution

open Json

namespace Shape

variable {g : Given} {ms : Members} {path : String}

/-! ## Parts of rows -/

theorem reads_defaultValue : Reads DefaultValue (all [string "value", word ValueKind "type"]) := by
  intro reading ms path hn h
  obtain ⟨g, hg, hread⟩ := exists_given (α := DefaultValue) hn reading
  simp only [all_cons_eq_nil] at h
  obtain ⟨value, kind, -⟩ := h
  obtain ⟨v, hv⟩ := exists_required_string hg value rfl
  obtain ⟨k, hk⟩ := exists_required_word hg kind rfl
  exact ⟨⟨v, k⟩, by simp [hread, Record.ofGiven?, hv, hk]⟩

theorem reads_generated : Reads Generated (all [word Storage "type", string "as"]) := by
  intro reading ms path hn h
  obtain ⟨g, hg, hread⟩ := exists_given (α := Generated) hn reading
  simp only [all_cons_eq_nil] at h
  obtain ⟨storage, expression, -⟩ := h
  obtain ⟨s, hs⟩ := exists_required_word hg storage rfl
  obtain ⟨e, he⟩ := exists_required_string hg expression rfl
  exact ⟨⟨s, e⟩, by simp [hread, Record.ofGiven?, hs, he]⟩

theorem reads_indexPart : Reads IndexPart (all [string "value", boolean "isExpression"]) := by
  intro reading ms path hn h
  obtain ⟨g, hg, hread⟩ := exists_given (α := IndexPart) hn reading
  simp only [all_cons_eq_nil] at h
  obtain ⟨value, isExpression, -⟩ := h
  obtain ⟨v, hv⟩ := exists_required_string hg value rfl
  obtain ⟨b, hb⟩ := exists_required_bool hg isExpression rfl
  exact ⟨if b then .expression v else .column v, by simp [hread, Record.ofGiven?, hv, hb]⟩

/-! ## Rows -/

/-- The fields whose word has a default and may be missing. Null passes there too, but it is not
read. -/
def laxFields : Kind → List String
  | .foreignKeys => ["onUpdate", "onDelete"]
  | .views => ["algorithm", "sqlSecurity"]
  | _ => []

/-- Whether a member is there and null. -/
def isNull : Option Json → Bool
  | some .null => true
  | _ => false

/-- Whether a row has null in a field where null passes and is not read. -/
def hasLaxNull : Json → Bool
  | .object ms =>
    (kind? ms).any fun kind => (laxFields kind).any fun f => isNull (Members.find? ms f)
  | _ => false

theorem isNull_eq_true_iff {x : Option Json} : isNull x = true ↔ x = some .null := by
  rcases x with _ | x
  · simp [isNull]
  · cases x <;> simp [isNull]

theorem isSome_bind_bind {α β γ : Type} {x : Option α} {y : Option β} {f : α → β → γ} :
    (x.bind fun a => y.bind fun b => some (f a b)).isSome = true ↔
      x.isSome = true ∧ y.isSome = true := by
  cases x <;> cases y <;> simp

/-- A row of the right shape is read from what is given for it, unless it has such a null. -/
def ReadsRow (α : Type) [Row α] : Prop :=
  ∀ (g : Given) (ms : Members) (path : String), g.Holds (Record.fields α) ms →
    (∀ m ∈ ms, m.2.hasDistinctKeys = true) → ofKind (Row.kind α) path ms = [] →
    ((Record.ofGiven? g : Option α).isSome = true ↔
      ∀ f ∈ laxFields (Row.kind α), ms.find? f ≠ some .null)

theorem readsRow_table : ReadsRow Table := by
  intro g ms path hg _ h
  obtain ⟨n, hn⟩ := exists_required_string hg h rfl
  simp [Record.ofGiven?, hn, Row.kind, laxFields]

theorem readsRow_column : ReadsRow Column := by
  intro g ms path hg hd h
  simp only [Row.kind, ofKind, all_cons_eq_nil] at h
  obtain ⟨table, name, type, notNull, autoIncrement, onUpdateNow, charSet, collation, default,
    generated, -⟩ := h
  obtain ⟨_, htable⟩ := exists_required_string hg table rfl
  obtain ⟨_, hname⟩ := exists_required_string hg name rfl
  obtain ⟨_, htype⟩ := exists_required_string hg type rfl
  obtain ⟨_, hnotNull⟩ := exists_required_bool hg notNull rfl
  obtain ⟨_, hauto⟩ := exists_optional_bool hg autoIncrement false rfl
  obtain ⟨_, hnow⟩ := exists_optional_bool hg onUpdateNow false rfl
  obtain ⟨_, hcharSet⟩ := exists_optional_string hg charSet rfl
  obtain ⟨_, hcollation⟩ := exists_optional_string hg collation rfl
  obtain ⟨_, hdefault⟩ := exists_optional_object hg hd reads_defaultValue default rfl
  obtain ⟨_, hgenerated⟩ := exists_optional_object hg hd reads_generated generated rfl
  simp [Record.ofGiven?, htable, hname, htype, hnotNull, hauto, hnow, hcharSet, hcollation,
    hdefault, hgenerated, Row.kind, laxFields]

theorem readsRow_primaryKey : ReadsRow PrimaryKey := by
  intro g ms path hg _ h
  simp only [Row.kind, ofKind, all_cons_eq_nil] at h
  obtain ⟨table, name, nameExplicit, columns, -⟩ := h
  obtain ⟨_, htable⟩ := exists_required_string hg table rfl
  obtain ⟨_, hname⟩ := exists_required_string hg name rfl
  obtain ⟨_, hexplicit⟩ := exists_optional_bool hg nameExplicit false rfl
  obtain ⟨_, hcolumns⟩ := exists_required_strings hg columns rfl
  simp [Record.ofGiven?, htable, hname, hexplicit, hcolumns, Row.kind, laxFields]

theorem readsRow_foreignKey : ReadsRow ForeignKey := by
  intro g ms path hg _ h
  simp only [Row.kind, ofKind, all_cons_eq_nil] at h
  obtain ⟨table, name, nameExplicit, columns, target, targetColumns, onUpdate, onDelete, -⟩ := h
  obtain ⟨_, htable⟩ := exists_required_string hg table rfl
  obtain ⟨_, hname⟩ := exists_required_string hg name rfl
  obtain ⟨_, hexplicit⟩ := exists_optional_bool hg nameExplicit false rfl
  obtain ⟨_, hcolumns⟩ := exists_required_strings hg columns rfl
  obtain ⟨_, htarget⟩ := exists_required_string hg target rfl
  obtain ⟨_, htcolumns⟩ := exists_required_strings hg targetColumns rfl
  have hupdate := optional_word_isSome_iff hg onUpdate .noAction rfl
  have hdelete := optional_word_isSome_iff hg onDelete .noAction rfl
  simp [Record.ofGiven?, htable, hname, hexplicit, hcolumns, htarget, htcolumns, Row.kind,
    laxFields, ← hupdate, ← hdelete, isSome_bind_bind]

theorem readsRow_index : ReadsRow Index := by
  intro g ms path hg hd h
  simp only [Row.kind, ofKind, all_cons_eq_nil] at h
  obtain ⟨table, name, nameExplicit, isUnique, dataStructure, algorithm, lock, parts, -⟩ := h
  obtain ⟨_, htable⟩ := exists_required_string hg table rfl
  obtain ⟨_, hname⟩ := exists_required_string hg name rfl
  obtain ⟨_, hexplicit⟩ := exists_optional_bool hg nameExplicit false rfl
  obtain ⟨_, hunique⟩ := exists_required_bool hg isUnique rfl
  obtain ⟨_, hstructure⟩ := exists_optional_word hg dataStructure rfl
  obtain ⟨_, halgorithm⟩ := exists_optional_word hg algorithm rfl
  obtain ⟨_, hlock⟩ := exists_optional_word hg lock rfl
  obtain ⟨_, hparts⟩ := exists_required_objects hg hd reads_indexPart parts rfl
  simp [Record.ofGiven?, htable, hname, hexplicit, hunique, hstructure, halgorithm, hlock, hparts,
    Row.kind, laxFields]

theorem readsRow_check : ReadsRow Check := by
  intro g ms path hg _ h
  simp only [Row.kind, ofKind, all_cons_eq_nil] at h
  obtain ⟨table, name, nameExplicit, value, -⟩ := h
  obtain ⟨_, htable⟩ := exists_required_string hg table rfl
  obtain ⟨_, hname⟩ := exists_required_string hg name rfl
  obtain ⟨_, hexplicit⟩ := exists_optional_bool hg nameExplicit false rfl
  obtain ⟨_, hvalue⟩ := exists_required_string hg value rfl
  simp [Record.ofGiven?, htable, hname, hexplicit, hvalue, Row.kind, laxFields]

theorem readsRow_view : ReadsRow View := by
  intro g ms path hg _ h
  simp only [Row.kind, ofKind, all_cons_eq_nil] at h
  obtain ⟨name, definition, algorithm, sqlSecurity, withCheckOption, -⟩ := h
  obtain ⟨_, hname⟩ := exists_required_string hg name rfl
  obtain ⟨_, hdefinition⟩ := exists_required_string hg definition rfl
  have halgorithm := optional_word_isSome_iff hg algorithm .undefined rfl
  have hsecurity := optional_word_isSome_iff hg sqlSecurity .definer rfl
  obtain ⟨_, hoption⟩ := exists_optional_word hg withCheckOption rfl
  simp [Record.ofGiven?, hname, hdefinition, hoption, Row.kind, laxFields, ← halgorithm,
    ← hsecurity, isSome_bind_bind]

theorem readsRow_viewColumn : ReadsRow ViewColumn := by
  intro g ms path hg _ h
  simp only [Row.kind, ofKind, all_cons_eq_nil] at h
  obtain ⟨view, name, type, notNull, -⟩ := h
  obtain ⟨_, hview⟩ := exists_required_string hg view rfl
  obtain ⟨_, hname⟩ := exists_required_string hg name rfl
  obtain ⟨_, htype⟩ := exists_required_string hg type rfl
  obtain ⟨_, hnotNull⟩ := exists_required_bool hg notNull rfl
  simp [Record.ofGiven?, hview, hname, htype, hnotNull, Row.kind, laxFields]

/-! ## Rows of any kind -/

theorem ReadsRow.read?_isSome_iff {α : Type} [Row α] [LosslessRow α] (h : ReadsRow α)
    (hd : (Json.object ms).hasDistinctKeys = true) (hpass : ofKind (Row.kind α) path ms = []) :
    (JsonForm.read? .gathered (.object (ms.filter fun m => m.1 != Entity.tagField)) :
      Option α).isSome = true ↔ ∀ f ∈ laxFields (Row.kind α), ms.find? f ≠ some .null := by
  obtain ⟨hn, hm⟩ := hasDistinctKeys_object.1 hd
  obtain ⟨g, hg, hread⟩ :=
    exists_given (α := α) (hn.sublist (List.filter_sublist.map _)) .gathered
  rw [hread]
  refine h g ms path ⟨hg.named, fun f hf => ?_⟩ hm hpass
  -- The tag that is taken off is none of the fields.
  have hne : f ≠ Entity.tagField := fun e =>
    LosslessRow.untagged (α := α) (e ▸ List.contains_iff_mem.1 hf)
  rw [hg.find? f hf]
  exact Members.find?_filter (p := (· != Entity.tagField)) (bne_iff_ne.2 hne) ms

theorem ofRow?_isSome_iff {kind : Kind} (hd : (Json.object ms).hasDistinctKeys = true)
    (h : ofKind kind path ms = []) :
    (Entity.ofRow? (.object (ms.filter fun m => m.1 != Entity.tagField)) kind).isSome = true ↔
      ∀ f ∈ laxFields kind, ms.find? f ≠ some .null := by
  cases kind <;> rw [Entity.ofRow?, Option.isSome_map]
  · exact readsRow_table.read?_isSome_iff hd h
  · exact readsRow_column.read?_isSome_iff hd h
  · exact readsRow_primaryKey.read?_isSome_iff hd h
  · exact readsRow_foreignKey.read?_isSome_iff hd h
  · exact readsRow_index.read?_isSome_iff hd h
  · exact readsRow_check.read?_isSome_iff hd h
  · exact readsRow_view.read?_isSome_iff hd h
  · exact readsRow_viewColumn.read?_isSome_iff hd h

/-- **A row of the right shape is read, unless it has null where null passes and is not read.** -/
theorem read?_row_isSome_iff {row : Json} (hd : row.hasDistinctKeys = true)
    (h : rowFaults path row = []) :
    (ofJson? row : Option Entity).isSome = true ↔ hasLaxNull row = false := by
  cases row with
  | object ms =>
    rw [rowFaults] at h
    split at h
    · next kind hkind =>
      have hlax : hasLaxNull (.object ms) = false ↔
          ∀ f ∈ laxFields kind, Members.find? ms f ≠ some .null := by
        simp [hasLaxNull, hkind, ← isNull_eq_true_iff]
      have hread : (ofJson? (.object ms) : Option Entity) =
          Entity.ofRow? (.object (ms.filter fun m => m.1 != Entity.tagField)) kind := by
        rw [kind?] at hkind
        split at hkind
        · next tag htag => simp [ofJson?, JsonForm.read?, htag, hkind]
        · cases hkind
      rw [hread, hlax]
      exact ofRow?_isSome_iff hd h
    · cases h
  | _ => cases h

end Shape

/-! ## Loading -/

namespace Catalog

variable {rows : List Json}

theorem readEntities_cases (rows : List Json) :
    (readEntities rows = .error .unreadable ∧
        ∃ row ∈ rows, (ofJson? row : Option Entity).isSome = false) ∨
      ((∃ es, readEntities rows = .ok es) ∧
        ∀ row ∈ rows, (ofJson? row : Option Entity).isSome = true) := by
  have hsome : (rows.mapM (ofJson? (α := Entity))).isSome = true ↔ _ := isSome_mapM_iff
  unfold readEntities
  split
  · next es hes => exact .inr ⟨⟨es, rfl⟩, hsome.1 (by rw [hes]; rfl)⟩
  · next hnone =>
    refine .inl ⟨rfl, ?_⟩
    rw [hnone] at hsome
    simpa using hsome

theorem ofEntities_cases (es : List Entity) :
    (∃ c, ofEntities es = .ok c) ∨ ∃ faults, ofEntities es = .error (.invalid faults) := by
  unfold ofEntities
  split
  · exact .inl ⟨_, rfl⟩
  · exact .inr ⟨_, rfl⟩

theorem ofRows_of_faults (h : Shape.rowsFaults rowsField rows ≠ []) :
    ofRows rows = .error (.invalid (Shape.rowsFaults rowsField rows)) := by
  unfold ofRows
  split
  · next hnil => exact absurd hnil h
  · rfl

theorem ofRows_of_shape (h : Shape.rowsFaults rowsField rows = []) :
    ofRows rows = (readEntities rows).bind ofEntities := by
  rw [ofRows, h]

/-- Rows of the right shape are unreadable because of a row that is not read. -/
theorem ofRows_unreadable_iff_of_shape (h : Shape.rowsFaults rowsField rows = []) :
    ofRows rows = .error .unreadable ↔
      ∃ row ∈ rows, (ofJson? row : Option Entity).isSome = false := by
  rw [ofRows_of_shape h]
  rcases readEntities_cases rows with ⟨he, hno⟩ | ⟨⟨es, hes⟩, hall⟩
  · rw [he]
    exact iff_of_true rfl hno
  · rw [hes]
    refine iff_of_false (fun e => ?_) fun ⟨row, hrow, hno⟩ => ?_
    · rcases ofEntities_cases es with ⟨c, hc⟩ | ⟨fs, hfs⟩
      · cases hc.symm.trans e
      · cases hfs.symm.trans e
    · cases (hall row hrow).symm.trans hno

/-- Loading rows ends in a catalog, in what is wrong with the rows, or in rows that are not read. -/
theorem ofRows_cases (rows : List Json) :
    ((∃ c, ofRows rows = .ok c) ∨ ∃ faults, ofRows rows = .error (.invalid faults)) ∨
      ofRows rows = .error .unreadable := by
  by_cases h : Shape.rowsFaults rowsField rows = []
  · rw [ofRows_of_shape h]
    rcases readEntities_cases rows with ⟨he, -⟩ | ⟨⟨es, hes⟩, -⟩
    · exact .inr (by rw [he]; rfl)
    · rw [hes]
      exact .inl (ofEntities_cases es)
  · exact .inl (.inr ⟨_, ofRows_of_faults h⟩)

/-- **The shape decides what is read**, but for nulls where a word has a default. -/
theorem shape_decides_reading (hd : ∀ row ∈ rows, row.hasDistinctKeys = true) :
    (Shape.rowsFaults rowsField rows = [] → ∀ row ∈ rows,
      ((∃ e : Entity, ofJson? row = some e) ↔ Shape.hasLaxNull row = false)) ∧
    (ofRows rows = .error .unreadable ↔
      Shape.rowsFaults rowsField rows = [] ∧ ∃ row ∈ rows, Shape.hasLaxNull row = true) ∧
    (((∃ c, ofRows rows = .ok c) ∨ ∃ faults, ofRows rows = .error (.invalid faults)) ∨
      ofRows rows = .error .unreadable) := by
  have hread (h : Shape.rowsFaults rowsField rows = []) (row) (hrow : row ∈ rows) :
      (ofJson? row : Option Entity).isSome = true ↔ Shape.hasLaxNull row = false := by
    obtain ⟨_, hrow'⟩ := Shape.items_forall h hrow
    exact Shape.read?_row_isSome_iff (hd row hrow) hrow'
  refine ⟨fun h row hrow => ?_, ?_, ofRows_cases rows⟩
  · rw [← Option.isSome_iff_exists]
    exact hread h row hrow
  · by_cases h : Shape.rowsFaults rowsField rows = []
    · rw [ofRows_unreadable_iff_of_shape h, and_iff_right h]
      refine exists_congr fun row => and_congr_right fun hrow => ?_
      simpa using not_congr (hread h row hrow)
    · rw [ofRows_of_faults h]
      exact iff_of_false (by simp) fun h' => h h'.1

/-- A foreign key in a document, with an action when the row that it refers to is deleted. -/
def authorKey (onDelete : Json) : Json :=
  .object [("columns", .array [.string "author"]), ("columnsTo", .array [.string "id"]),
    ("entityType", .string "fks"), ("name", .string "author_fk"), ("onDelete", onDelete),
    ("table", .string "posts"), ("tableTo", .string "users")]

theorem shape_decides_reading_of_authorKey :
    (∀ row ∈ [authorKey (.string "CASCADE")], row.hasDistinctKeys = true) ∧
      Shape.rowsFaults rowsField [authorKey (.string "CASCADE")] = [] ∧
      (∃ e : Entity, ofJson? (authorKey (.string "CASCADE")) = some e) ∧
      ofRows [authorKey (.string "CASCADE")] ≠ .error .unreadable := by
  have hvalue : (authorKey (.string "CASCADE")).value? = some (authorKey (.string "CASCADE")) := by
    rfl
  have hd : ∀ row ∈ [authorKey (.string "CASCADE")], row.hasDistinctKeys = true :=
    List.forall_mem_singleton.2 (hasDistinctKeys_of_value? hvalue)
  have hshape : Shape.rowsFaults rowsField [authorKey (.string "CASCADE")] = [] := by decide
  have hlax : Shape.hasLaxNull (authorKey (.string "CASCADE")) = false := by decide
  obtain ⟨hread, hiff, -⟩ := shape_decides_reading hd
  refine ⟨hd, hshape, (hread hshape _ (List.mem_singleton_self _)).2 hlax, fun h => ?_⟩
  obtain ⟨-, row, hrow, hnull⟩ := hiff.1 h
  cases (List.mem_singleton.1 hrow ▸ hlax).symm.trans hnull

/-- **A row of the right shape need not be read**: an action may be null by its shape, but not when
it is read. -/
theorem null_action_unreadable :
    (authorKey .null).hasDistinctKeys = true ∧
      Shape.rowsFaults rowsField [authorKey .null] = [] ∧
      (ofJson? (authorKey .null) : Option Entity) = none ∧
      ofRows [authorKey .null] = .error .unreadable :=
  ⟨by decide, by decide, by decide, rfl⟩

end Catalog

end SchemaEvolution
