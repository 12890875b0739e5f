import SchemaEvolution.Plan.Renderer

/-!
# Rendering loses nothing

**Theorem (`Renderer.render_keeps_order`).** Whatever functions a renderer has for whatever kinds,
the statements that it writes are those that are answered, in order, each with its answer. The
kinds of all others are noted in order, and the SQL is that of the written ones, in order. The
renderer for MySQL answers every statement: with one text, or with two if a column is made anew.

The first part is an induction over the statements with one step for each outcome
(`render_cons_of_some`, `render_cons_of_none`). The second one looks every kind up in the table of
writers: what is registered for a kind has to accept the statements of that kind
(`written_mysql`).
-/

namespace SchemaEvolution
namespace Renderer

variable {r : Renderer} {s : Statement} {ss : List Statement} {sql : List String}

/-! ## One step -/

/-- Whether a renderer writes a statement. -/
def answers (r : Renderer) (s : Statement) : Bool :=
  (r.render? s).isSome

theorem render_cons_of_some (h : r.render? s = some sql) (ss : List Statement) :
    r.render (s :: ss) =
      { r.render ss with
        sql := sql ++ (r.render ss).sql
        grouped := (s, sql) :: (r.render ss).grouped } := by
  rw [render, h]

theorem render_cons_of_none (h : r.render? s = none) (ss : List Statement) :
    r.render (s :: ss) = { r.render ss with unhandled := s.kind :: (r.render ss).unhandled } := by
  rw [render, h]

/-! ## All steps -/

theorem map_fst_grouped (r : Renderer) (ss : List Statement) :
    (r.render ss).grouped.map Prod.fst = ss.filter r.answers := by
  induction ss with
  | nil => rfl
  | cons s ss ih =>
    cases h : r.render? s with
    | none => rw [render_cons_of_none h, List.filter_cons_of_neg (by simp [answers, h]), ih]
    | some sql =>
      rw [render_cons_of_some h, List.filter_cons_of_pos (by simp [answers, h]), List.map_cons, ih]

theorem unhandled_render (r : Renderer) (ss : List Statement) :
    (r.render ss).unhandled = (ss.filter (!r.answers ·)).map Statement.kind := by
  induction ss with
  | nil => rfl
  | cons s ss ih =>
    cases h : r.render? s with
    | none =>
      rw [render_cons_of_none h, List.filter_cons_of_pos (by simp [answers, h]), List.map_cons, ih]
    | some sql => rw [render_cons_of_some h, List.filter_cons_of_neg (by simp [answers, h]), ih]

theorem render?_of_mem_grouped {p : Statement × List String} (hp : p ∈ (r.render ss).grouped) :
    r.render? p.1 = some p.2 := by
  induction ss with
  | nil => cases hp
  | cons s ss ih =>
    cases h : r.render? s with
    | none =>
      rw [render_cons_of_none h] at hp
      exact ih hp
    | some sql =>
      rw [render_cons_of_some h] at hp
      obtain rfl | hp := List.mem_cons.1 hp
      · exact h
      · exact ih hp

theorem sql_render (r : Renderer) (ss : List Statement) :
    (r.render ss).sql = (r.render ss).grouped.flatMap Prod.snd := by
  induction ss with
  | nil => rfl
  | cons s ss ih =>
    cases h : r.render? s with
    | none => rw [render_cons_of_none h, ih]
    | some sql => rw [render_cons_of_some h, List.flatMap_cons, ih]

/-! ## The renderer for MySQL -/

/-- The SQL of a statement as the server takes it: one text, or that of a drop and that of an
addition if a column is made anew. -/
def Written (s : Statement) (sql : List String) : Prop :=
  match s with
  | .recreateColumn c isKey => ∃ drop add, mysql.render? (.dropColumn c) = some [drop] ∧
      mysql.render? (.addColumn c isKey) = some [add] ∧ sql = [drop, add]
  | _ => ∃ text, sql = [text]

theorem written_mysql (s : Statement) : ∃ sql, mysql.render? s = some sql ∧ Written s sql := by
  cases s
  case recreateColumn c isKey => exact ⟨_, rfl, _, _, rfl, rfl, rfl⟩
  all_goals exact ⟨_, rfl, _, rfl⟩

theorem answers_mysql (s : Statement) : mysql.answers s = true := by
  obtain ⟨sql, h, -⟩ := written_mysql s
  rw [answers, h, Option.isSome_some]

theorem written_of_mem_grouped {p : Statement × List String}
    (hp : p ∈ (mysql.render ss).grouped) : Written p.1 p.2 := by
  obtain ⟨sql, h, hsql⟩ := written_mysql p.1
  obtain rfl : sql = p.2 := Option.some.inj (h.symm.trans (render?_of_mem_grouped hp))
  exact hsql

/-- **Rendering keeps order and loses nothing**, for every table of functions. The renderer for
MySQL writes every statement whole. -/
theorem render_keeps_order (r : Renderer) (ss : List Statement) :
    ((r.render ss).grouped.map Prod.fst = ss.filter r.answers ∧
      (∀ p ∈ (r.render ss).grouped, r.render? p.1 = some p.2) ∧
      (r.render ss).unhandled = (ss.filter (!r.answers ·)).map Statement.kind ∧
      (r.render ss).sql = (r.render ss).grouped.flatMap Prod.snd) ∧
    (mysql.render ss).unhandled = [] ∧ (mysql.render ss).grouped.map Prod.fst = ss ∧
      ∀ p ∈ (mysql.render ss).grouped, Written p.1 p.2 := by
  have hall : ss.filter mysql.answers = ss := List.filter_eq_self.2 fun s _ => answers_mysql s
  have hnone : ss.filter (!mysql.answers ·) = [] :=
    List.filter_eq_nil_iff.2 fun s _ => by simp [answers_mysql]
  refine ⟨⟨map_fst_grouped r ss, fun _ => render?_of_mem_grouped, unhandled_render r ss,
    sql_render r ss⟩, ?_, ?_, fun _ => written_of_mem_grouped⟩
  · rw [unhandled_render, hnone, List.map_nil]
  · rw [map_fst_grouped, hall]

/-- A function that is registered for a kind whose statements it declines leaves them out. -/
theorem render_keeps_order_mispaired :
    let r := empty.register .dropView Writer.dropTable |>.register .dropTable Writer.dropTable
    let rendered := r.render [.dropView "v", .dropTable "t", .renameView "v" "w"]
    rendered.grouped.map Prod.fst = [.dropTable "t"] ∧
      rendered.unhandled = [.dropView, .renameView] ∧
      (.dropTable "t", ["DROP TABLE \x60t\x60;"]) ∈ rendered.grouped ∧
      r.render? (.dropTable "t") = some ["DROP TABLE \x60t\x60;"] := by
  intro r rendered
  obtain ⟨⟨hgrouped, hanswer, hunhandled, -⟩, -⟩ :=
    render_keeps_order r [.dropView "v", .dropTable "t", .renameView "v" "w"]
  have hmem : (.dropTable "t", ["DROP TABLE \x60t\x60;"]) ∈ rendered.grouped := by decide
  exact ⟨hgrouped.trans (by decide), hunhandled.trans (by decide), hmem, hanswer _ hmem⟩

end Renderer
end SchemaEvolution
