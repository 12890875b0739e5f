import SchemaEvolution.Proofs.Json.Reading
import SchemaEvolution.Proofs.LosslessRows
import SchemaEvolution.Proofs.Reloading
import SchemaEvolution.Snapshot

/-!
# Snapshots that come back

**A snapshot comes back from its text** (`Snapshot.ofText_toText`), if its version and dialect are
the ones that are read: its document is printed and read, the examinations find nothing wrong with
its value, and the fields are read from there. **With the rows of a valid catalog it leads back to
that catalog** (`Snapshot.round_trips`).
-/

namespace SchemaEvolution

open Json

instance : LosslessRecord Snapshot where
  depth := 4
  keys _ := rfl
  nodup := by decide
  areText hd s := by
    simp only [toMembers, membersAreText, Bool.and_eq_true]
    and_intros <;> first | trivial | exact Lossless.isText (Nat.le_trans (by decide) hd) _
  ofGiven?_eq g s h := by
    simp only [toMembers, List.forall_mem_cons] at h
    simp [Record.ofGiven?, Given.required?, Given.optional?, h]

namespace Snapshot

variable {s : Snapshot} {x : Json} {field expected : String}

/-! ## The examinations -/

theorem requireTag_eq_ok (h : member? x field = some (toJson expected).sorted) :
    requireTag x field expected = .ok () := by
  rw [requireTag, h]
  exact if_pos rfl

theorem requireRows_eq_ok {es : List Entity}
    (h : member? x Catalog.rowsField = some (toJson es).sorted) : requireRows x = .ok () := by
  rw [requireRows, h, sorted_list]
  simp only [Shape.rowsFaults_toJson]

/-! ## Values and texts -/

/-- **A snapshot is read from the value of its document.** -/
theorem ofValue_sorted (hversion : s.version = currentVersion)
    (hdialect : s.dialect = mysqlDialect) : ofValue (toJson s).sorted = .ok s := by
  have hfields : ∀ m ∈ toMembers s, member? (toJson s).sorted m.1 = some m.2.sorted :=
    fun _ hm => lookup_sortedMembers (LosslessRecord.nodup_toMembers s) hm
  simp only [toMembers, List.forall_mem_cons, hversion, hdialect] at hfields
  obtain ⟨version, dialect, -, -, rows, -⟩ := hfields
  rw [ofValue, requireTag_eq_ok version, requireTag_eq_ok dialect, requireRows_eq_ok rows, ofJson?,
    Lossless.read?_sorted]
  rfl

/-- **A snapshot comes back from its text.** -/
theorem ofText_toText (hversion : s.version = currentVersion)
    (hdialect : s.dialect = mysqlDialect) : ofText s.toText = .ok s := by
  -- A row nests three deep at most, and it stands in a list in the snapshot.
  have htext : (toJson s).isText 5 = true := Lossless.isText (Nat.le_refl 5) s
  rw [ofText, toText, ofString?_pretty htext, Option.bind_some, value?_eq htext (by decide)]
  exact ofValue_sorted hversion hdialect

/-- **The snapshot of a valid catalog comes back from its text, and the catalog from the
snapshot**, with its rows in their order. -/
theorem round_trips {c : Catalog} (hc : c.Valid) (id : String) (previous : Snapshot)
    (renames : List String) :
    let s := { ofCatalog id c previous with renames }
    ofText s.toText = .ok s ∧ ∃ d, s.catalog = .ok d ∧ d.entities = c.entities :=
  ⟨ofText_toText rfl rfl, c, Catalog.ofEntities_entities hc, rfl⟩

/-- A catalog with a row of every kind, and with letters and marks of many kinds. -/
def bookshop : Catalog :=
  .ofEntitiesLoose [.table ⟨"książki"⟩, .table ⟨"autorzy"⟩,
    .column
      { table := "książki", name := "tytuł", type := "varchar(255)", notNull := true,
        defaultValue := some ⟨"„bez tytułu”\n", .string⟩, charSet := some "utf8mb4" },
    .column
      { table := "książki", name := "skrót", type := "varchar(32)",
        generated := some ⟨.stored, "left(\"tytuł\", 32)"⟩ },
    .primaryKey ⟨"autorzy", "autorzy_pk", true, ["id"]⟩,
    .foreignKey
      { table := "książki", name := "napisał", columns := ["autor"], target := "autorzy",
        targetColumns := ["id"], onDelete := .cascade },
    .index
      { table := "książki", name := "wg tytułu", isUnique := false,
        parts := [.column "tytuł", .expression "lower(skrót)"], lock := some .shared },
    .check ⟨"książki", "tytuł_dany", false, "tytuł <> '\\'"⟩,
    .view { name := "📚", definition := "select 1", sqlSecurity := .invoker },
    .viewColumn ⟨"📚", "półka", "int", true⟩]

theorem round_trips_bookshop :
    bookshop.Valid ∧
      let s := { ofCatalog "1" bookshop origin with renames := ["książka->książki"] }
      ofText s.toText = .ok s ∧ ∃ d, s.catalog = .ok d ∧ d.entities = bookshop.entities := by
  have hvalid : bookshop.Valid := by decide
  exact ⟨hvalid, round_trips hvalid "1" origin ["książka->książki"]⟩

end Snapshot

end SchemaEvolution
