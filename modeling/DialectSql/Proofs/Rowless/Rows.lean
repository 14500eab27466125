import DialectSql.Proofs.Rowless.Comparison

namespace DialectSql

open Output

mutual
/-- A row of several values, or a row that holds one. -/
def Expr.holdsRow : Expr → Bool
  | .tuple es => 1 < es.length || anyHoldsRow es
  | _ => false
def anyHoldsRow : List Expr → Bool
  | [] => false
  | e :: es => e.holdsRow || anyHoldsRow es
end

theorem anyHoldsRow_eq (es : List Expr) : anyHoldsRow es = es.any Expr.holdsRow := by
  induction es with
  | nil => rfl
  | cons e es ih => rw [anyHoldsRow, ih, List.any_cons]

theorem Expr.holdsRow_eq (e : Expr) :
    e.holdsRow = (e.isTuple && (1 < e.elements.length || e.elements.any holdsRow)) := by
  cases e with
  | tuple es => rw [holdsRow, anyHoldsRow_eq]; rfl
  | _ => rfl

def Expr.query? : Expr → Option Query
  | .subquery q | .quantified _ q => some q
  | _ => none

theorem Expr.query?_of_isScalar {e : Expr} (h : e.isScalar = true) : e.query? = none := by
  cases e <;> first | rfl | cases h

theorem Expr.isTuple_of_query? {e : Expr} {q : Query} (h : e.query? = some q) :
    e.isTuple = false := by
  cases e <;> first | rfl | cases h

/-- The tables and the restriction that a query keeps where a comparison is moved into it have no
row. -/
structure QuerySpec.Rowless (d : Dialect) (s : QuerySpec) : Prop where
  source : (Render.fromClause d (Render.tableGroups d s.roots)).Keeps true
  restriction : ∀ r, s.movedRestriction d = some r → r.Rowless

/-- Rows nested at will, of values and queries that have no row themselves. -/
inductive Expr.OfRows (d : Dialect) : Expr → Prop
  | value {e : Expr} (hscalar : e.isScalar = true) (h : (Render.expression d e).Rowless) : OfRows d e
  | query {e : Expr} {q : Query} (hquery : e.query? = some q) (h : (Render.expression d e).Rowless)
      (hmoved : ∀ s, q = .spec s → s.Rowless d)
      (hcolumns : ∀ s, q = .spec s → ∀ c ∈ s.columns, OfRows d c)
      (hflat : ∀ s, q = .spec s → ∀ c ∈ s.columns, c.holdsRow = false) : OfRows d e
  | tuple {es : List Expr} (h : ∀ e ∈ es, OfRows d e) : OfRows d (.tuple es)

namespace Expr.OfRows

variable {d : Dialect} {e l r : Expr}

theorem rowless (h : e.OfRows d) (hflat : e.holdsRow = false) : (Render.expression d e).Rowless := by
  induction h with
  | value _ h | query _ h => exact h
  | @tuple es h ih =>
      rw [holdsRow, Bool.or_eq_false_iff, decide_eq_false_iff_not, anyHoldsRow_eq,
        List.any_eq_false] at hflat
      have helements : ∀ o ∈ es.map (Render.expression d), o.Rowless :=
        List.forall_mem_map.2 fun x hx => ih x hx (by simpa using hflat.2 x hx)
      rw [Render.expression, Render.operand, Operand.output, Render.operandOutputs_operands]
      refine Keeps.parenthesized ?_
      cases es with
      | nil => exact Keeps.empty
      | cons x xs =>
          cases xs with
          | nil => exact helements (Render.expression d x) (by simp)
          | cons => simp at hflat

theorem rowless_of_value (h : e.OfRows d) (hvalue : e.isTuple = false) :
    (Render.expression d e).Rowless := by
  cases h with
  | value _ h | query _ h => exact h
  | tuple => cases hvalue

theorem elements (h : e.OfRows d) : ∀ x ∈ e.elements, x.OfRows d := by
  cases h with
  | value hscalar h =>
      rw [elements_of_value (isTuple_of_isScalar hscalar)]
      simpa using .value hscalar h
  | query hquery h hmoved hcolumns hflat =>
      rw [elements_of_value (isTuple_of_query? hquery)]
      simpa using .query hquery h hmoved hcolumns hflat
  | tuple h => exact h

theorem columns {s : QuerySpec} (h : e.OfRows d) (hquery : e.query? = some (.spec s)) :
    ∀ c ∈ s.columns, c.OfRows d ∧ c.holdsRow = false := by
  cases h with
  | value hscalar => cases (Expr.query?_of_isScalar hscalar).symm.trans hquery
  | tuple => cases hquery
  | query hquery' h hmoved hcolumns hflat =>
      have hspec : _ = Query.spec s := Option.some_inj.1 (hquery'.symm.trans hquery)
      exact fun c hc => ⟨hcolumns s hspec c hc, hflat s hspec c hc⟩

/-- The elements of a row in which no row is nested are written as values. -/
theorem rowless_elements (h : e.OfRows d) (hflat : e.elements.any holdsRow = false) :
    ∀ o ∈ Render.operands d e.elements, o.output.Rowless := by
  intro o ho
  obtain ⟨x, hx, rfl⟩ := Render.mem_operands.1 ho
  exact (h.elements x hx).rowless (by simpa using List.any_eq_false.1 hflat x hx)

theorem rowless_columns {s : QuerySpec} (h : e.OfRows d) (hquery : e.query? = some (.spec s)) :
    ∀ o ∈ Render.operands d s.columns, o.output.Rowless := by
  intro o ho
  obtain ⟨x, hx, rfl⟩ := Render.mem_operands.1 ho
  exact (h.columns hquery x hx).1.rowless (h.columns hquery x hx).2

end Expr.OfRows

namespace Output.Keeps

open Comparison

variable {d : Dialect}

theorem expanded_value {l : Operand} (hvalue : l.isTuple = false) (hl : l.output.Rowless)
    (op : ComparisonOperator) {r : Operand} (hr : r.isTuple = false → r.output.Rowless) :
    (Comparison.expanded d l op r).Rowless := by
  cases l with
  | tuple => cases hvalue
  | _ =>
      cases r with
      | tuple rs => exact fail _
      | scalar =>
          rw [Comparison.expanded.eq_def]
          dsimp only
          split
          · exact distinctByNullTests op hl (hr rfl)
          · exact plain op hl (hr rfl)
      | _ => exact plain op hl (hr rfl)

/-- A row that is compared with the rows of a query inside it. -/
theorem moved (hd : d.LacksRows) {q : Query} (hmoved : ∀ s, q = .spec s → s.Rowless d)
    {ls : List Operand} {op : ComparisonOperator}
    (hmatch : ∀ s, q = .spec s → ∀ bounded,
      (Comparison.tuples d (Render.operands d s.columns) ls op.invert bounded).Rowless)
    (quantifier : Quantifier) (negated : Bool) :
    (Comparison.subquery d ls (Render.query d none q) op quantifier negated).Rowless := by
  cases q with
  | group g =>
      rw [Render.query, Comparison.subquery.eq_def]
      exact fail _
  | spec s =>
      obtain ⟨out, hspec⟩ := Render.querySpec_spec d s
      obtain ⟨bounded, hselect⟩ := selectTuple_of_values hd.writesRows
        (Render.operands d s.columns) ls op.invert
      rw [Render.query, hspec]
      refine subquery quantifier negated (hmoved s rfl).source (hmoved s rfl).restriction ?_
      rw [hselect]
      exact hmatch s rfl bounded

/-- A comparison has no row if its rows have none where they are written by their elements. -/
theorem rendered (hd : d.LacksRows) {l r : Expr} (hl : l.OfRows d) (hr : r.OfRows d)
    {op : ComparisonOperator} (hop : intersects d op = false)
    (htuples : ∀ ls rs, l = .tuple ls → r = .tuple rs → ∀ bounded,
      (Comparison.tuples d (Render.operands d ls) (Render.operands d rs) op bounded).Rowless)
    (hmatch : ∀ ls s, l = .tuple ls → r.query? = some (.spec s) → ∀ bounded,
      (Comparison.tuples d (Render.operands d s.columns) (Render.operands d ls) op.invert
        bounded).Rowless) :
    (Comparison.render d (Render.operand d l) op (Render.operand d r)).Rowless := by
  rw [render_lacking hd, hop]
  cases hlt : l.isTuple with
  | false =>
      refine expanded_value ((RowValue.isTuple_operand l).trans hlt) (hl.rowless_of_value hlt) op ?_
      exact fun hrt => hr.rowless_of_value ((RowValue.isTuple_operand r).symm.trans hrt)
  | true =>
      obtain ⟨ls, rfl⟩ := Expr.eq_tuple hlt
      cases hr with
      | value hscalar =>
          obtain ⟨o, ho⟩ := Render.operand_scalar d hscalar
          rw [ho]
          exact fail _
      | @query _ q hquery _ hmoved _ _ =>
          have hmatch' : ∀ s, q = .spec s → ∀ bounded, (Comparison.tuples d
              (Render.operands d s.columns) (Render.operands d ls) op.invert bounded).Rowless :=
            fun s hs => hmatch ls s rfl (hquery.trans (congrArg some hs))
          cases r with
          | subquery | quantified =>
              cases hquery
              exact moved hd hmoved hmatch' _ false
          | _ => cases hquery
      | tuple => exact htuples ls _ rfl rfl _

theorem tuples_flat {op : ComparisonOperator} (hop : op.isDistinctness = false)
    {ls rs : List Operand} (hl : ∀ l ∈ ls, l.output.Rowless) (hr : ∀ r ∈ rs, r.output.Rowless)
    (bounded : Bool) : (Comparison.tuples d ls rs op bounded).Rowless :=
  tuples d op bounded (fun _ => List.forall_mem_append.2 ⟨hl, hr⟩)
    fun hdistinct => by rw [hop] at hdistinct; cases hdistinct

/-- Rows of which no element holds a row are compared without one. -/
theorem rendered_flat (hd : d.LacksRows) {l r : Expr} (hl : l.OfRows d) (hr : r.OfRows d)
    {op : ComparisonOperator} (hop : op.isDistinctness = false)
    (hlflat : l.elements.any Expr.holdsRow = false) (hrflat : r.elements.any Expr.holdsRow = false) :
    (Comparison.render d (Render.operand d l) op (Render.operand d r)).Rowless := by
  have hinvert : op.invert.isDistinctness = false := Emulation.isDistinctness_invert.trans hop
  refine rendered hd hl hr (by simp [intersects, hop]) ?_ ?_
  · rintro ls rs rfl rfl bounded
    exact tuples_flat hop (hl.rowless_elements hlflat) (hr.rowless_elements hrflat) bounded
  · rintro ls s rfl hquery bounded
    exact tuples_flat hinvert (hr.rowless_columns hquery) (hl.rowless_elements hlflat) bounded

theorem tuples_pairs {op : ComparisonOperator} (hop : op.isDistinctness = true) {ls rs : List Expr}
    (h : ∀ l ∈ ls, ∀ r ∈ rs,
      (Comparison.render d (Render.operand d l) op (Render.operand d r)).Rowless) (bounded : Bool) :
    (Comparison.tuples d (Render.operands d ls) (Render.operands d rs) op bounded).Rowless := by
  refine tuples d op bounded (fun hordinary => ?_) fun _ p hp => ?_
  · rw [hop] at hordinary
    cases hordinary
  · obtain ⟨hleft, hright⟩ := List.of_mem_zip hp
    obtain ⟨l, hl, hpl⟩ := Render.mem_operands.1 hleft
    obtain ⟨r, hr, hpr⟩ := Render.mem_operands.1 hright
    rw [← hpl, ← hpr]
    exact h l hl r hr

/-- Tests of distinctness take nested rows apart. -/
theorem rendered_pairs (hd : d.LacksRows) {l r : Expr} (hl : l.OfRows d) (hr : r.OfRows d)
    {op : ComparisonOperator} (hop : comparesPairs d op = true) :
    (Comparison.render d (Render.operand d l) op (Render.operand d r)).Rowless ∧
      (Comparison.render d (Render.operand d r) op (Render.operand d l)).Rowless := by
  have hdistinct : op.isDistinctness = true := (Bool.and_eq_true_iff.1 hop).1
  have hinvert : op.invert = op := Emulation.invert_of_isDistinctness hdistinct
  have hnone : intersects d op = false := by
    simp_all [intersects, comparesPairs]
  -- A row against a query is compared inside the query, with the sides exchanged, so both sides
  -- are carried.
  induction hl generalizing r with
  | @value e hscalar h =>
      have he := Expr.OfRows.value hscalar h
      constructor
      · refine rendered hd he hr hnone ?_ ?_ <;> (rintro ls _ rfl; cases hscalar)
      · refine rendered hd hr he hnone ?_ ?_
        · rintro ls rs - rfl
          cases hscalar
        · intro ls s _ hquery
          cases (Expr.query?_of_isScalar hscalar).symm.trans hquery
  | @query e q hquery h hmoved hcolumns hflat ih =>
      have he := Expr.OfRows.query hquery h hmoved hcolumns hflat
      constructor
      · refine rendered hd he hr hnone ?_ ?_ <;> (rintro ls _ rfl; cases hquery)
      · refine rendered hd hr he hnone ?_ ?_
        · rintro ls rs - rfl
          cases hquery
        · rintro ls s rfl hspec bounded
          have hs : q = .spec s := Option.some_inj.1 (hquery.symm.trans hspec)
          rw [hinvert]
          exact tuples_pairs hdistinct
            (fun c hc x hx => (ih s hs c hc (hr.elements x hx)).1) bounded
  | @tuple es h ih =>
      have he := Expr.OfRows.tuple h
      constructor
      · refine rendered hd he hr hnone ?_ ?_
        · rintro _ rs ⟨⟩ rfl bounded
          exact tuples_pairs hdistinct (fun x hx y hy => (ih x hx (hr.elements y hy)).1) bounded
        · rintro _ s ⟨⟩ hspec bounded
          rw [hinvert]
          exact tuples_pairs hdistinct
            (fun c hc x hx => (ih x hx (hr.columns hspec c hc).1).2) bounded
      · refine rendered hd hr he hnone ?_ ?_
        · rintro rs _ rfl ⟨⟩ bounded
          exact tuples_pairs hdistinct (fun y hy x hx => (ih x hx (hr.elements y hy)).2) bounded
        · rintro _ _ _ ⟨⟩

theorem compared (hd : d.LacksRows) {l r : Expr} (hl : l.OfRows d) (hr : r.OfRows d)
    {op : ComparisonOperator} (hflat : comparesPairs d op = false →
      l.elements.any Expr.holdsRow = false ∧ r.elements.any Expr.holdsRow = false) :
    (Comparison.render d (Render.operand d l) op (Render.operand d r)).Rowless := by
  cases hpairs : comparesPairs d op with
  | true => exact (rendered_pairs hd hl hr hpairs).1
  | false =>
      obtain ⟨hlflat, hrflat⟩ := hflat hpairs
      cases hop : op.isDistinctness with
      | false => exact rendered_flat hd hl hr hop hlflat hrflat
      | true =>
          have hintersects : intersects d op = true := by simp_all [intersects, comparesPairs]
          rw [render_lacking hd, if_pos hintersects, Render.elements_operand,
            Render.elements_operand]
          exact distinctByIntersect d op (hl.rowless_elements hlflat)
            (hr.rowless_elements hrflat)

end Output.Keeps

end DialectSql
