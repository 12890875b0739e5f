import Mathlib.Data.List.Sort
import Mathlib.Data.String.Basic
import SchemaEvolution.Proofs.Ownership
import SchemaEvolution.Proofs.Requests
import SchemaEvolution.Proofs.WithoutRenames

/-!
# What a resolver is asked

`Resolver.logged` answers like a resolver and notes every request that is put to it.

**A stage makes the requests for which there are candidates on both sides** (`Offer.requests`), and
no others: settling tables and views makes at most one (`Settled.returns_logged_tables`,
`Settled.returns_logged_views`), settling columns at most one for each table
(`Settled.returns_logged_columns`).

**Tables that are created or dropped are not asked about**: none of their columns is on the other
side, since a table that the resolver leaves created or deleted is on one side only, also after
renames (`Resolution.Accounts.hasKey_of_created`). So no candidate is lost
(`ColumnGroup.exists_names`).

The requests of a whole run are put together from these (`Migration.requests_of_between`). What each
of them offers is told from the rows of the two catalogs (`Catalog.tableOffer`,
`Catalog.columnOffer`, `Catalog.viewOffer`), and all that can be offered is (`Catalog.Requests`).
-/

namespace SchemaEvolution

/-! ## Requests that are made -/

/-- There is something on offer on both sides. -/
def Offer.hasBoth {α : Type} (o : Offer α) : Bool :=
  !(o.created.isEmpty || o.deleted.isEmpty)

theorem Offer.hasBoth_iff {α : Type} {o : Offer α} :
    o.hasBoth = true ↔ o.created ≠ [] ∧ o.deleted ≠ [] := by
  simp [hasBoth]

/-- The request for an offer, which is made if something is created and something is deleted. -/
def Offer.requests {α : Type} (request : Offer α → Request) (o : Offer α) : List Request :=
  if o.hasBoth then [request o] else []

def Request.hasBoth : Request → Bool
  | tables o => o.hasBoth
  | columns _ o => o.hasBoth
  | views o => o.hasBoth

theorem Offer.mem_requests {α : Type} {request : Offer α → Request} {o : Offer α} {q : Request} :
    q ∈ o.requests request ↔ q = request o ∧ o.hasBoth = true := by
  rw [requests]
  split <;> simp_all

namespace Catalog

/-- What is on offer of tables: those that only the target has, and those that only the source
has. -/
def tableOffer (source target : Catalog) : Offer Table where
  created := target.tables.rows.filter fun t => !source.tables.hasKey (Row.key t)
  deleted := source.tables.rows.filter fun t => !target.tables.hasKey (Row.key t)

def columnOffer (source target : Catalog) (table : String) : Offer Column where
  created := target.columns.rows.filter fun c =>
    c.table == table && !source.columns.hasKey (Row.key c)
  deleted := source.columns.rows.filter fun c =>
    c.table == table && !target.columns.hasKey (Row.key c)

def viewOffer (source target : Catalog) : Offer View where
  created := target.views.rows.filter fun v => !source.views.hasKey (Row.key v)
  deleted := source.views.rows.filter fun v => !target.views.hasKey (Row.key v)

end Catalog

namespace Resolver

variable {σ : Type}

/-- Notes a request, and answers. -/
def logging {α : Type} (request : Offer α → Request)
    (ask : Offer α → StateM σ (Except String (Resolution α))) (o : Offer α) :
    StateM (σ × List Request) (Except String (Resolution α)) :=
  fun (state, log) =>
    let (answer, state) := ask o state
    (answer, state, log ++ [request o])

/-- The resolver with a log of all requests. -/
def logged (r : Resolver (StateM σ)) : Resolver (StateM (σ × List Request)) where
  tables := logging .tables r.tables
  columns table := logging (.columns table) (r.columns table)
  views := logging .views r.views

end Resolver

/-! ## The requests of each stage -/

namespace Settled

variable {σ : Type} {r : Resolver (StateM σ)} {s t : Sides} {a b : σ} {log : List Request}

theorem returns_logged_answer {α : Type} [Row α] {request : Offer α → Request}
    {ask : Offer α → StateM σ (Except String (Resolution α))} {o : Offer α} {res : Resolution α}
    (h : Returns (answer ask o) a res b) :
    Returns (answer (Resolver.logging request ask) o) (a, log) res
      (b, log ++ o.requests request) := by
  unfold answer at h ⊢
  split at h
  · next hempty =>
    obtain ⟨rfl, rfl⟩ := returns_pure_iff.1 h
    rw [if_pos hempty, Offer.requests, if_neg (by rw [Offer.hasBoth, hempty]; decide)]
    exact returns_pure_iff.2 ⟨rfl, congrArg (a, ·) (List.append_nil log).symm⟩
  · next hempty =>
    obtain ⟨x, c, hx, h⟩ := returns_bind_iff.1 h
    rw [if_neg hempty, Offer.requests, if_pos (by simpa [Offer.hasBoth] using hempty)]
    refine returns_bind_iff.2 ⟨x, (c, log ++ [request o]), returns_state_iff.2 ?_, ?_⟩
    · show Resolver.logging request ask o (a, log) = _
      rw [Resolver.logging, show ask o a = (x, c) from returns_state_iff.1 hx]
    · split at h
      · exact absurd h not_returns_throw
      · split at h
        · exact absurd h not_returns_throw
        · obtain ⟨rfl, rfl⟩ := returns_pure_iff.1 h
          exact returns_pure_iff.2 ⟨rfl, rfl⟩

theorem returns_logged_carry {β γ : Type} {x : ExceptT Error (StateM σ) β}
    {y : ExceptT Error (StateM (σ × List Request)) β} {requests : List Request}
    (hxy : ∀ {v : β} {c : σ}, Returns x a v c → Returns y (a, log) v (c, log ++ requests))
    (e : β → SidesEdit Unit) (f : β → Sides → γ) {w : γ}
    (h : Returns (do let v ← x; let sides ← s.carry (e v); return f v sides) a w b) :
    Returns (do let v ← y; let sides ← s.carry (e v); return f v sides) (a, log) w
      (b, log ++ requests) := by
  obtain ⟨v, _, hv, h⟩ := returns_bind_iff.1 h
  obtain ⟨sides, _, hsides, h⟩ := returns_bind_iff.1 h
  obtain ⟨hcarry, rfl⟩ := returns_except_iff.1 hsides
  obtain ⟨rfl, rfl⟩ := returns_pure_iff.1 h
  refine returns_bind_iff.2 ⟨v, _, hxy hv, ?_⟩
  refine returns_bind_iff.2 ⟨sides, _, returns_except_iff.2 ⟨hcarry, rfl⟩, ?_⟩
  exact returns_pure_iff.2 ⟨rfl, rfl⟩

theorem returns_logged_tables {v : Resolution Table × Sides} (h : Returns (tables r s) a v b) :
    Returns (tables r.logged s) (a, log) v
      (b, log ++ (s.source.tableOffer s.target).requests .tables) :=
  returns_logged_carry returns_logged_answer (fun res => Propagate.renameTables res.renamed)
    (fun res sides => (res, sides)) h

theorem returns_logged_views {v : List (Renaming View) × Sides} (h : Returns (views r s) a v b) :
    Returns (views r.logged s) (a, log) v
      (b, log ++ (s.source.viewOffer s.target).requests .views) :=
  returns_logged_carry returns_logged_answer (fun res => Propagate.renameViews res.renamed)
    (fun res sides => (res.renamed, sides)) h

theorem returns_logged_renamedColumns : ∀ {gs : List ColumnGroup} {a b : σ}
    {rs : List (Renaming Column)} {log : List Request}, Returns (renamedColumns r gs) a rs b →
      Returns (renamedColumns r.logged gs) (a, log) rs
        (b, log ++ gs.flatMap fun g => Offer.requests (.columns g.table) ⟨g.created, g.dropped⟩)
  | [], _, _, _, _, h => by
    obtain ⟨rfl, rfl⟩ := returns_pure_iff.1 h
    exact returns_pure_iff.2 ⟨rfl, by simp⟩
  | g :: gs, _, _, _, log, h => by
    obtain ⟨answered, _, h₁, h⟩ := returns_bind_iff.1 h
    obtain ⟨rest, _, h₂, h⟩ := returns_bind_iff.1 h
    obtain ⟨rfl, rfl⟩ := returns_pure_iff.1 h
    refine returns_bind_iff.2 ⟨answered, _, returns_logged_answer h₁, ?_⟩
    refine returns_bind_iff.2 ⟨rest, _, returns_logged_renamedColumns h₂, ?_⟩
    exact returns_pure_iff.2 ⟨rfl, by rw [List.flatMap_cons, List.append_assoc]⟩

theorem returns_logged_columns {res : Resolution Table} {v : List (Renaming Column) × Sides}
    (h : Returns (columns r res s) a v b) :
    Returns (columns r.logged res s) (a, log) v (b, log ++
      (ColumnGroup.ofColumns (s.source.columns.difference s.target.columns).created
        (s.source.columns.difference s.target.columns).dropped res.created res.deleted).flatMap
          fun g => Offer.requests (.columns g.table) ⟨g.created, g.dropped⟩) :=
  returns_logged_carry returns_logged_renamedColumns Propagate.renameColumns
    (fun renamed sides => (renamed, sides)) h

end Settled

/-! ## Tables on one side only -/

theorem Settled.accounts_of_tables {σ : Type} {r : Resolver (StateM σ)} {s t : Sides} {a b : σ}
    {res : Resolution Table} (h : Returns (tables r s) a (res, t) b) :
    res.Accounts (offer (s.source.tables.difference s.target.tables)) := by
  obtain ⟨_, _, ha, h⟩ := returns_bind_iff.1 h
  obtain ⟨_, _, -, h⟩ := returns_bind_iff.1 h
  cases (returns_pure_iff.1 h).1
  exact returns_answer ha

namespace Resolution.Accounts

variable {source target middle : Collection Table} {res : Resolution Table} {x : Table}

/-- A table that stays created is not there on the left, also after renames. -/
theorem hasKey_of_created (h : res.Accounts (Settled.offer (source.difference target)))
    (hm : middle.rows = source.rows.map (relabel (.ofTableRenames res.renamed)))
    (hx : x ∈ res.created) : middle.hasKey (Row.key x) = false := by
  have ho := offer_between source target
  have hmatch := matching_of_accounts ho h
  have hnodup : ((res.created ++ res.renamed.map (·.new)).map Row.key).Nodup :=
    h.created.nodup_iff.1 (target.keys_nodup.sublist (ho.created.map _))
  rw [List.map_append, List.map_map, List.nodup_append] at hnodup
  refine Collection.hasKey_eq_false_iff.2 fun z hz e => ?_
  obtain ⟨y, hy, -, ⟨q, hq, -, hqz⟩ | ⟨-, hyz⟩⟩ :=
    Matching.exists_of_mem (Relabelling.ofTableRenames_follows hmatch) hm hz
  · exact hnodup.2.2 _ (List.mem_map_of_mem hx) _ (List.mem_map_of_mem hq) (e.symm.trans hqz)
  · have hcreated : Row.key x ∈ res.createdKeys :=
      List.mem_map_of_mem (List.mem_append_left _ hx)
    obtain ⟨w, hw, hwx⟩ := List.mem_map.1 (h.created.mem_iff.2 hcreated)
    have hno := Collection.hasKey_eq_false_iff.1 (ho.created_new w hw) y hy
    exact hno (hyz.symm.trans (e.trans hwx.symm))

theorem hasKey_of_deleted (h : res.Accounts (Settled.offer (source.difference target)))
    (hx : x ∈ res.deleted) : target.hasKey (Row.key x) = false := by
  have hdeleted : Row.key x ∈ res.deletedKeys :=
    List.mem_map_of_mem (List.mem_append_left _ hx)
  obtain ⟨w, hw, hwx⟩ := List.mem_map.1 (h.deleted.mem_iff.2 hdeleted)
  exact hwx ▸ (offer_between source target).deleted_gone w hw

end Resolution.Accounts

/-! ## Columns of tables on both sides -/

theorem Offer.flatMap_requests {α β : Type} (request : β → Offer α → Request) (o : β → Offer α) :
    ∀ xs : List β, (xs.flatMap fun x => (o x).requests (request x)) =
      (xs.filter fun x => (o x).hasBoth).map fun x => request x (o x)
  | [] => rfl
  | x :: xs => by
    rw [List.flatMap_cons, flatMap_requests request o xs, Offer.requests, List.filter_cons]
    split <;> rfl

theorem Offer.requests_eq_nil_iff {α : Type} {request : Offer α → Request} {o : Offer α} :
    o.requests request = [] ↔ o.created = [] ∨ o.deleted = [] := by
  simp only [Offer.requests, ite_eq_right_iff, Offer.hasBoth_iff, reduceCtorEq, imp_false]
  tauto

namespace ColumnGroup

variable {source target : Catalog} {ts ds : List Table} {t : String}

/-- Leaving out the columns of some tables leaves out all columns of each or none. -/
theorem filter_left_out (cs : List Column) (ts : List Table) (t : String) :
    (cs.filter fun c => !ts.any (·.name == c.table)).filter (·.table == t) =
      if ts.any (·.name == t) then [] else cs.filter (·.table == t) := by
  rw [List.filter_filter]
  split
  · next h =>
    refine List.filter_eq_nil_iff.2 fun c _ hc => ?_
    obtain ⟨hct, hno⟩ := Bool.and_eq_true_iff.1 hc
    rw [beq_iff_eq.1 hct, h] at hno
    cases hno
  · next h =>
    refine List.filter_congr fun c _ => ?_
    by_cases hct : c.table = t
    · simp [hct, h]
    · simp [hct]

theorem columnOffer_eq (source target : Catalog) (t : String) :
    source.columnOffer target t =
      ⟨(source.columns.difference target.columns).created.filter (·.table == t),
        (source.columns.difference target.columns).dropped.filter (·.table == t)⟩ := by
  simp only [Catalog.columnOffer, Collection.difference, List.filter_filter]

/-- Where a table is left out, it has no columns on the other side. -/
theorem requests_left_out (hts : ∀ x ∈ ts, ∀ c ∈ source.columns.rows, c.table ≠ x.name)
    (hds : ∀ x ∈ ds, ∀ c ∈ target.columns.rows, c.table ≠ x.name) (t : String) :
    Offer.requests (.columns t)
        ⟨((source.columns.difference target.columns).created.filter fun c =>
            !ts.any (·.name == c.table)).filter (·.table == t),
          ((source.columns.difference target.columns).dropped.filter fun c =>
            !ds.any (·.name == c.table)).filter (·.table == t)⟩ =
      (source.columnOffer target t).requests (.columns t) := by
  rw [filter_left_out, filter_left_out]
  by_cases ht : ts.any (·.name == t) = true
  · obtain ⟨x, hx, rfl⟩ : ∃ x ∈ ts, x.name = t := by simpa using ht
    have hno : (source.columnOffer target x.name).deleted = [] :=
      List.filter_eq_nil_iff.2 fun c hc => by simp [hts x hx c hc]
    rw [Offer.requests_eq_nil_iff.2 (.inr hno), Offer.requests_eq_nil_iff.2 (.inl (if_pos ht))]
  by_cases hd : ds.any (·.name == t) = true
  · obtain ⟨x, hx, rfl⟩ : ∃ x ∈ ds, x.name = t := by simpa using hd
    have hno : (source.columnOffer target x.name).created = [] :=
      List.filter_eq_nil_iff.2 fun c hc => by simp [hds x hx c hc]
    rw [Offer.requests_eq_nil_iff.2 (.inl hno), Offer.requests_eq_nil_iff.2 (.inr (if_pos hd))]
  rw [if_neg ht, if_neg hd, columnOffer_eq]

theorem pairwise_tables (created dropped : List Column) (ts ds : List Table) :
    ((ofColumns created dropped ts ds).map (·.table)).Pairwise (· < ·) := by
  have hsorted : ((ofColumns created dropped ts ds).map (·.table)).Pairwise (· ≤ ·) := by
    rw [ofColumns, List.map_map]
    exact (List.pairwise_mergeSort' (α := String) (· ≤ ·) _).map _ fun _ _ h => h
  exact hsorted.imp₂ (fun _ _ => lt_of_le_of_ne) (nodup_tables created dropped ts ds)

/-- **Grouping loses no candidate.** The columns of tables in `ts` and `ds` are on one side only,
so leaving them out changes no request. -/
theorem exists_names (hts : ∀ x ∈ ts, ∀ c ∈ source.columns.rows, c.table ≠ x.name)
    (hds : ∀ x ∈ ds, ∀ c ∈ target.columns.rows, c.table ≠ x.name) :
    ∃ names : List String, names.Pairwise (· < ·) ∧
      (∀ t, t ∈ names ↔ (source.columnOffer target t).hasBoth = true) ∧
      ((ofColumns (source.columns.difference target.columns).created
        (source.columns.difference target.columns).dropped ts ds).flatMap
          fun g => Offer.requests (.columns g.table) ⟨g.created, g.dropped⟩) =
        names.map fun t => .columns t (source.columnOffer target t) := by
  have hpairwise := pairwise_tables (source.columns.difference target.columns).created
    (source.columns.difference target.columns).dropped ts ds
  refine ⟨((ofColumns (source.columns.difference target.columns).created
    (source.columns.difference target.columns).dropped ts ds).map (·.table)).filter
      fun t => (source.columnOffer target t).hasBoth, hpairwise.sublist List.filter_sublist,
      fun t => ?_, ?_⟩
  · rw [List.mem_filter, and_iff_right_iff_imp]
    intro hboth
    have hmade : (source.columnOffer target t).requests (.columns t) ≠ [] := by
      rw [Offer.requests, if_pos hboth]
      exact List.cons_ne_nil _ _
    rw [← requests_left_out hts hds, Ne, Offer.requests_eq_nil_iff, not_or] at hmade
    obtain ⟨c, hc⟩ := List.exists_mem_of_ne_nil _ hmade.1
    obtain ⟨hc, hct⟩ := List.mem_filter.1 hc
    simp only [ofColumns, List.map_map, List.mem_map, List.mem_mergeSort, List.mem_eraseDups,
      List.mem_append]
    exact ⟨t, ⟨c, .inl hc, beq_iff_eq.1 hct⟩, rfl⟩
  · rw [← Offer.flatMap_requests fun t => Request.columns t]
    simp only [ofColumns, List.flatMap_map, List.map_map, Function.comp_def,
      requests_left_out hts hds]

end ColumnGroup

/-! ## The requests of a run -/

/-- The requests of a run between two catalogs, in order. After its tables have got their new
names, the source is `middle`; `names` are the tables whose columns are asked about. -/
structure Catalog.Requests (source middle target : Catalog) (names : List String)
    (requests : List Request) : Prop where
  /-- At most one request for tables comes first, and at most one for views comes last. -/
  eq_append : requests =
    (source.tableOffer target).requests .tables ++
      names.map (fun t => .columns t (middle.columnOffer target t)) ++
        (source.viewOffer target).requests .views
  increasing : names.Pairwise (· < ·)
  /-- Nobody is asked for nothing. -/
  hasBoth : ∀ q ∈ requests, q.hasBoth = true
  /-- No candidates are passed over, and no others are on offer. -/
  tables : ∀ o, .tables o ∈ requests ↔ o = source.tableOffer target ∧ o.hasBoth = true
  columns : ∀ t o, .columns t o ∈ requests ↔ o = middle.columnOffer target t ∧ o.hasBoth = true
  views : ∀ o, .views o ∈ requests ↔ o = source.viewOffer target ∧ o.hasBoth = true
  complete : ∀ t, t ∈ names ↔ (middle.columnOffer target t).hasBoth = true
  on_both_sides : ∀ t ∈ names, middle.hasTable t = true ∧ target.hasTable t = true

namespace Catalog

variable {source middle target : Catalog} {names : List String}

theorem IsRelabelled.hasTable_of_column {ρ : Relabelling} (h : source.IsRelabelled ρ middle)
    (hs : ∀ c ∈ source.columns.rows, source.hasTable c.table = true) :
    ∀ c ∈ middle.columns.rows, middle.hasTable c.table = true := by
  intro c hc
  rw [h.columns] at hc
  obtain ⟨y, hy, rfl⟩ := List.mem_map.1 hc
  exact h.hasTable (hs y hy)

theorem table_ne_of_hasKey (hs : ∀ c ∈ source.columns.rows, source.hasTable c.table = true)
    {x : Table} (hx : source.tables.hasKey (Row.key x) = false) :
    ∀ c ∈ source.columns.rows, c.table ≠ x.name := by
  intro c hc e
  have hno : source.hasTable x.name = false := hx
  rw [← e, hs c hc] at hno
  cases hno

theorem hasTable_of_columnOffer (hs : ∀ c ∈ source.columns.rows, source.hasTable c.table = true)
    (ht : ∀ c ∈ target.columns.rows, target.hasTable c.table = true) {t : String}
    (h : (source.columnOffer target t).hasBoth = true) :
    source.hasTable t = true ∧ target.hasTable t = true := by
  obtain ⟨hc, hd⟩ := Offer.hasBoth_iff.1 h
  obtain ⟨c, hc⟩ := List.exists_mem_of_ne_nil _ hc
  obtain ⟨d, hd⟩ := List.exists_mem_of_ne_nil _ hd
  simp only [columnOffer, List.mem_filter, Bool.and_eq_true, beq_iff_eq] at hc hd
  exact ⟨hd.2.1 ▸ hs d hd.1, hc.2.1 ▸ ht c hc.1⟩

theorem Requests.of_complete (hs : ∀ c ∈ middle.columns.rows, middle.hasTable c.table = true)
    (ht : ∀ c ∈ target.columns.rows, target.hasTable c.table = true)
    (hsorted : names.Pairwise (· < ·))
    (hnames : ∀ t, t ∈ names ↔ (middle.columnOffer target t).hasBoth = true) :
    Requests source middle target names
      ((source.tableOffer target).requests .tables ++
        names.map (fun t => .columns t (middle.columnOffer target t)) ++
          (source.viewOffer target).requests .views) where
  eq_append := rfl
  increasing := hsorted
  hasBoth q hq := by
    simp only [List.mem_append, Offer.mem_requests, List.mem_map] at hq
    rcases hq with (⟨rfl, ho⟩ | ⟨t, ht, rfl⟩) | ⟨rfl, ho⟩
    · exact ho
    · exact (hnames t).1 ht
    · exact ho
  tables o := by
    simp only [List.mem_append, Offer.mem_requests, List.mem_map, reduceCtorEq, and_false,
      false_and, exists_false, or_false, Request.tables.injEq]
    exact and_congr_right fun e => by rw [e]
  columns t o := by
    simp only [List.mem_append, Offer.mem_requests, List.mem_map, reduceCtorEq, false_and,
      or_false, false_or, Request.columns.injEq]
    constructor
    · rintro ⟨t, ht, rfl, rfl⟩
      exact ⟨rfl, (hnames t).1 ht⟩
    · rintro ⟨rfl, ho⟩
      exact ⟨t, (hnames t).2 ho, rfl, rfl⟩
  views o := by
    simp only [List.mem_append, Offer.mem_requests, List.mem_map, reduceCtorEq, and_false,
      false_and, exists_false, false_or, Request.views.injEq]
    exact and_congr_right fun e => by rw [e]
  complete := hnames
  on_both_sides t h := hasTable_of_columnOffer hs ht ((hnames t).1 h)

end Catalog

section

variable {σ : Type} {r : Resolver (StateM σ)} {source target : Catalog} {a b : σ}

/-- **The requests of settling renames.** -/
theorem Sides.requests_of_settle {x : Settled}
    (hs : ∀ c ∈ source.columns.rows, source.hasTable c.table = true)
    (ht : ∀ c ∈ target.columns.rows, target.hasTable c.table = true)
    (h : Returns (Sides.settle r ⟨source, target⟩) a x b) :
    ∃ middle names requests, source.IsRelabelled (.ofTableRenames x.renames.tables) middle ∧
      source.Requests middle target names requests ∧
      Returns (Sides.settle r.logged ⟨source, target⟩) (a, []) x (b, requests) := by
  obtain ⟨⟨tables, s₁⟩, a₁, h₁, h⟩ := returns_bind_iff.1 h
  obtain ⟨⟨columns, s₂⟩, a₂, h₂, h⟩ := returns_bind_iff.1 h
  obtain ⟨⟨views, s₃⟩, a₃, h₃, h⟩ := returns_bind_iff.1 h
  obtain ⟨rfl, rfl⟩ := returns_pure_iff.1 h
  obtain ⟨-, hrt, hkt⟩ := Settled.returns_tables h₁
  obtain ⟨-, -, hrc, hkc⟩ := Settled.returns_columns h₂
  have hsv : s₂.source.views = source.views := by
    refine Collection.ext_rows ?_
    rw [hrc.views, hrt.views, map_relabel_eq_self fun _ => rfl, map_relabel_eq_self fun _ => rfl]
  have htv : s₂.target.views = target.views := (hkt.trans hkc).views
  have hmiddle := hrt.hasTable_of_column hs
  have hacc := Settled.accounts_of_tables h₁
  have hcreated : ∀ x ∈ tables.created, ∀ c ∈ s₁.source.columns.rows, c.table ≠ x.name :=
    fun x hx => Catalog.table_ne_of_hasKey hmiddle (hacc.hasKey_of_created hrt.tables hx)
  have hdeleted : ∀ x ∈ tables.deleted, ∀ c ∈ s₁.target.columns.rows, c.table ≠ x.name := by
    rw [hkt.columns]
    exact fun x hx => Catalog.table_ne_of_hasKey ht (hacc.hasKey_of_deleted hx)
  obtain ⟨names, hsorted, hnames, hgroups⟩ := ColumnGroup.exists_names hcreated hdeleted
  have hoffer (t : String) :
      s₁.source.columnOffer s₁.target t = s₁.source.columnOffer target t := by
    rw [Catalog.columnOffer, Catalog.columnOffer, hkt.columns]
  simp only [hoffer] at hnames hgroups
  refine ⟨s₁.source, names, _, hrt, .of_complete hmiddle ht hsorted hnames, ?_⟩
  have hviews (log : List Request) : Returns (Settled.views r.logged s₂) (a₂, log) (views, s₃)
      (a₃, log ++ (source.viewOffer target).requests .views) := by
    rw [Catalog.viewOffer, ← hsv, ← htv]
    exact Settled.returns_logged_views h₃
  refine returns_bind_iff.2 ⟨_, _, Settled.returns_logged_tables h₁, ?_⟩
  refine returns_bind_iff.2 ⟨_, _, Settled.returns_logged_columns h₂, ?_⟩
  rw [hgroups]
  exact returns_bind_iff.2 ⟨_, _, hviews _, returns_pure_iff.2 ⟨rfl, rfl⟩⟩

/-- **What a resolver is asked** in the course of a migration, and in which order. -/
theorem Migration.requests_of_between {options : MigrationOptions} {m : Migration}
    (hs : ∀ c ∈ source.columns.rows, source.hasTable c.table = true)
    (ht : ∀ c ∈ target.columns.rows, target.hasTable c.table = true)
    (h : Returns (Migration.between r options source target) a m b) :
    ∃ x middle names requests, Returns (Sides.settle r ⟨source, target⟩) a x b ∧
      Migration.ofSettled options x = m ∧
      source.IsRelabelled (.ofTableRenames x.renames.tables) middle ∧
      source.Requests middle target names requests ∧
      Returns (Migration.between r.logged options source target) (a, []) m (b, requests) := by
  obtain ⟨x, hx, rfl⟩ := Migration.returns_between_iff.1 h
  obtain ⟨middle, names, requests, hm, hr, hlog⟩ := Sides.requests_of_settle hs ht hx
  exact ⟨x, middle, names, requests, hx, rfl, hm, hr, Migration.returns_between options hlog⟩

/-- Two tables with a column each, and a view. -/
def twoTables (table column view : String) : Catalog :=
  .ofEntitiesLoose [.table ⟨"tags"⟩, .table ⟨table⟩,
    .column { table := "tags", name := "id", type := "int" },
    .column { table, name := column, type := "int" },
    .view { name := view, definition := "select 1" }]

/-- The column of a table is on offer under the new name of the table, which is asked about first;
the other table stays as it is. -/
theorem Migration.requests_of_between_twoTables :
    let source := twoTables "post" "id" "all"
    let target := twoTables "posts" "key" "any"
    let r : Resolver (StateM Unit) := RenameTable.resolver ⟨[("post", "posts")]⟩
    let requests : List Request := [.tables ⟨[⟨"posts"⟩], [⟨"post"⟩]⟩,
      .columns "posts" ⟨[{ table := "posts", name := "key", type := "int" }],
        [{ table := "posts", name := "id", type := "int" }]⟩,
      .views ⟨[{ name := "any", definition := "select 1" }],
        [{ name := "all", definition := "select 1" }]⟩]
    (∀ c ∈ source.columns.rows, source.hasTable c.table = true) ∧
      (∀ c ∈ target.columns.rows, target.hasTable c.table = true) ∧
      ∃ m, Returns (Migration.between r {} source target) () m () ∧
        Returns (Migration.between r.logged {} source target) ((), []) m ((), requests) ∧
        ∃ middle names, source.Requests middle target names requests := by
  intro source target r requests
  have hs : ∀ c ∈ source.columns.rows, source.hasTable c.table = true := by decide
  have ht : ∀ c ∈ target.columns.rows, target.hasTable c.table = true := by decide
  let x : Settled := ⟨⟨twoTables "posts" "id" "all", target⟩, { tables := [⟨⟨"post"⟩, ⟨"posts"⟩⟩] }⟩
  have hx : Returns (Sides.settle r ⟨source, target⟩) () x () := by decide +kernel
  have hlogged : Returns (Sides.settle r.logged ⟨source, target⟩) ((), []) x ((), requests) := by
    decide +kernel
  have h := Migration.returns_between {} hx
  have hmade := Migration.returns_between {} hlogged
  obtain ⟨_, middle, names, made, -, -, -, hr, hlog⟩ := Migration.requests_of_between hs ht h
  have hsame : made = requests := congrArg Prod.snd (hlog.unique_state hmade)
  exact ⟨hs, ht, _, h, hmade, middle, names, hsame ▸ hr⟩

end

end SchemaEvolution
