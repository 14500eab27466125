import DialectSql.Proofs.Arity
import DialectSql.Proofs.Rowless.Predicate

namespace DialectSql

open Output Node

variable {d : Dialect}

theorem Node.Renders.part {m n : Node} (h : m ∈ n.parts d) : Renders d m n := .through h .here

namespace Expr

theorem renders_element {x e : Expr} (h : x ∈ e.elements) : Renders d (.expr x) (.expr e) := by
  cases e with
  | tuple es => exact .part (List.mem_map_of_mem h)
  | _ =>
      obtain rfl := List.mem_singleton.1 h
      exact .here

theorem renders_row (d : Dialect) (e : Expr) (h : e.holdsRow = true) :
    ∃ es : List Expr, 1 < es.length ∧ Renders d (.expr (.tuple es)) (.expr e) := by
  match e, h with
  | .tuple es, h =>
      rw [holdsRow, Bool.or_eq_true, decide_eq_true_eq, anyHoldsRow_eq, List.any_eq_true] at h
      rcases h with hlen | ⟨x, hx, hrow⟩
      · exact ⟨es, hlen, .here⟩
      · obtain ⟨row, hlen, hrenders⟩ := renders_row d x hrow
        exact ⟨row, hlen, hrenders.trans (renders_element hx)⟩
termination_by sizeOf e
decreasing_by
  have := List.sizeOf_lt_of_mem hx
  decreasing_tactic

end Expr

theorem Node.mem_rows {op : ComparisonOperator} (hop : op.isDistinctness = false)
    {ls rs : List Expr} (hlen : ls.length = rs.length) {x : Expr} (hx : x ∈ ls ++ rs) :
    expr x ∈ rows ls op rs := by
  rw [rows_ordinary hop, List.mem_flatMap]
  rcases List.mem_append.1 hx with hx | hx
  · rw [← List.map_fst_zip hlen.le] at hx
    obtain ⟨p, hp, rfl⟩ := List.mem_map.1 hx
    exact ⟨p, hp, by simp⟩
  · rw [← List.map_snd_zip hlen.ge] at hx
    obtain ⟨p, hp, rfl⟩ := List.mem_map.1 hx
    exact ⟨p, hp, by simp⟩

namespace Comparison

/-- A row is moved into a query that has as many columns. -/
theorem columns_of_moved {ls : List Expr} {q : Query} {op : ComparisonOperator}
    {quantifier : Quantifier} {negated : Bool}
    (hok : (subquery d (Render.operands d ls) (Render.query d none q) op quantifier
      negated).failure = none) : ∃ s, q = .spec s ∧ s.columns.length = ls.length := by
  cases q with
  | group g =>
      rw [Render.query, subquery.eq_def] at hok
      cases hok
  | spec s =>
      refine ⟨s, rfl, ?_⟩
      obtain ⟨out, hspec⟩ := Render.querySpec_spec d s
      rw [Render.query, hspec] at hok
      cases hmovable : s.isMovable with
      | false =>
          rw [hmovable, subquery.eq_def] at hok
          cases hok
      | true =>
          rw [hmovable, subquery_movable] at hok
          have harity := (failure_checkArity _ _).1 (failure_append_eq_none.1 hok).1
          rw [Render.length_operands, Render.length_operands] at harity
          exact harity.symm

theorem renders_moved (hd : d.LacksRows) {ls : List Expr} {q : Query} {op : ComparisonOperator}
    (hop : op.isDistinctness = false) {quantifier : Quantifier} {negated : Bool}
    (hok : (subquery d (Render.operands d ls) (Render.query d none q) op quantifier
      negated).failure = none) {x : Expr} (hx : x ∈ ls) : expr x ∈ subqueryParts d ls op q := by
  have hinvert : op.invert.isDistinctness = false := Emulation.isDistinctness_invert.trans hop
  obtain ⟨s, rfl, hlen⟩ := columns_of_moved hok
  rw [subqueryParts, selectTupleParts, hd.writesRows]
  exact List.mem_append_right _ (mem_rows hinvert hlen (List.mem_append_right _ hx))

theorem parts_ordinary (hd : d.LacksRows) {op : ComparisonOperator} (hop : op.isDistinctness = false)
    (lhs rhs : Expr) : parts d lhs op rhs = standardParts d lhs op rhs := by
  rw [parts]
  split
  · rfl
  · rw [hop]
    rfl
  · split
    · rename_i htuples
      obtain ⟨hl, hr⟩ := Bool.and_eq_true_iff.1 htuples
      rw [Expr.eq_tuple_elements hl, Expr.eq_tuple_elements hr, standardParts, hd.constructor]
      rfl
    · rfl

theorem renders_plain {lhs rhs : Expr} {op : ComparisonOperator}
    (h : parts d lhs op rhs = [expr lhs, expr rhs]) {x : Expr} (hx : x ∈ lhs.elements ++ rhs.elements) :
    Renders d (.expr x) (.predicate (.comparison lhs op rhs)) := by
  have hparts : (Node.predicate (.comparison lhs op rhs)).parts d = [expr lhs, expr rhs] := h
  rcases List.mem_append.1 hx with hx | hx
  · exact .through (m := expr lhs) (by simp [hparts]) (Expr.renders_element hx)
  · exact .through (m := expr rhs) (by simp [hparts]) (Expr.renders_element hx)

theorem renders_tuples (hd : d.LacksRows) {ls rs : List Expr} {op : ComparisonOperator}
    (hop : op.isDistinctness = false)
    (hok : (Render.predicate d (.comparison (.tuple ls) op (.tuple rs))).failure = none) {x : Expr}
    (hx : x ∈ ls ++ rs) : Renders d (.expr x) (.predicate (.comparison (.tuple ls) op (.tuple rs))) := by
  have hlen : ls.length = rs.length :=
    Predicate.aligned hok (.tuple ls, .tuple rs) (List.mem_singleton_self _)
  refine .part ?_
  rw [Node.parts, Predicate.parts, parts_ordinary hd hop, standardParts, hd.constructor]
  exact mem_rows hop hlen hx

/-- Of the rows that are compared with a query only the one on the left is taken apart. -/
theorem renders_query (hd : d.LacksRows) {ls : List Expr} {rhs : Expr} {q : Query}
    (hquery : rhs.query? = some q) {op : ComparisonOperator} (hop : op.isDistinctness = false)
    (hok : (Render.predicate d (.comparison (.tuple ls) op rhs)).failure = none) {x : Expr}
    (hx : x ∈ ls) : Renders d (.expr x) (.predicate (.comparison (.tuple ls) op rhs)) := by
  have hnone : intersects d op = false := by simp [intersects, hop]
  have hparts : standardParts d (.tuple ls) op rhs = subqueryParts d ls op q := by
    cases rhs with
    | subquery => cases hquery; simp [standardParts, Expr.isTuple, Expr.elements, hd.constructor]
    | quantified => cases hquery; simp [standardParts, Expr.isTuple, Expr.elements, hd.quantified]
    | _ => cases hquery
  refine .part ?_
  rw [Node.parts, Predicate.parts, parts_ordinary hd hop, hparts]
  rw [Render.predicate, render_lacking hd, hnone] at hok
  cases rhs with
  | subquery | quantified =>
      cases hquery
      exact renders_moved hd hop hok hx
  | _ => cases hquery

/-- An element that holds a row is written by itself, unless elements are compared with each
other. -/
theorem renders_nested (hd : d.LacksRows) {lhs rhs : Expr} {op : ComparisonOperator}
    (hpairs : comparesPairs d op = false)
    (hok : (Render.predicate d (.comparison lhs op rhs)).failure = none) {x : Expr}
    (hx : x ∈ lhs.elements ++ rhs.elements) (hrow : x.holdsRow = true) :
    Renders d (.expr x) (.predicate (.comparison lhs op rhs)) := by
  cases hop : op.isDistinctness with
  | true =>
      have hrule : d.strategies.comparison = .intersect := by simpa [comparesPairs, hop] using hpairs
      refine .part ?_
      rw [Node.parts, Predicate.parts, parts.eq_def, hrule]
      simpa [hop, exprs] using hx
  | false =>
      have hplain (h : standardParts d lhs op rhs = [expr lhs, expr rhs]) :=
        renders_plain ((parts_ordinary hd hop lhs rhs).trans h) hx
      cases hl : lhs.isTuple with
      | false => exact hplain (Composed.standardParts_value d hl op rhs)
      | true =>
          obtain ⟨ls, rfl⟩ := Expr.eq_tuple hl
          cases hquery : rhs.query? with
          | some q =>
              have helements := Expr.elements_of_value (Expr.isTuple_of_query? hquery)
              have hvalue : rhs.holdsRow = false := by cases rhs <;> first | rfl | cases hquery
              rw [helements] at hx
              rcases List.mem_append.1 hx with hx | hx
              · exact renders_query hd hquery hop hok hx
              · rw [List.mem_singleton.1 hx, hvalue] at hrow
                cases hrow
          | none =>
              cases rhs with
              | tuple rs => exact renders_tuples hd hop hok hx
              | subquery | quantified => cases hquery
              | _ => exact hplain rfl

end Comparison

namespace Predicate

theorem renders_list (hd : d.LacksRows) {e : Expr} {items : List Expr} {negated : Bool}
    (hok : (Render.predicate d (.inList e items negated)).failure = none)
    (h : (inList e items negated).nestsRow d = true) :
    ∃ x, x.holdsRow = true ∧ Renders d (.expr x) (.predicate (.inList e items negated)) := by
  simp only [nestsRow, Bool.and_eq_true, Bool.not_eq_true', List.any_eq_true] at h
  obtain ⟨hne, x, hx, hrow⟩ := h
  refine ⟨x, hrow, ?_⟩
  cases htuple : e.isTuple with
  | true =>
      have hparts : (Node.predicate (.inList e items negated)).parts d =
          items.flatMap fun i => rows e.elements .equal i.elements := by
        simp [Node.parts, parts, hne, htuple, hd.lists]
      have hitem (i : Expr) (hi : i ∈ items) (hx : x ∈ e.elements ++ i.elements) :
          Renders d (.expr x) (.predicate (.inList e items negated)) := by
        have harity : e.arity = i.arity :=
          aligned hok (e, i) (by simpa [compared, htuple] using hi)
        refine .part ?_
        rw [hparts, List.mem_flatMap]
        exact ⟨i, hi, mem_rows rfl harity hx⟩
      simp only [htuple, if_true, List.mem_append, List.mem_flatMap] at hx
      rcases hx with hx | ⟨i, hi, hx⟩
      · obtain ⟨i, is, rfl⟩ := List.exists_cons_of_ne_nil (l := items) (by rintro rfl; cases hne)
        exact hitem i (by simp) (List.mem_append_left _ hx)
      · exact hitem i hi (List.mem_append_right _ hx)
  | false =>
      have hparts : (Node.predicate (.inList e items negated)).parts d = exprs (e :: items) := by
        simp [Node.parts, parts, hne, htuple]
      simp only [htuple, Bool.false_eq_true, if_false, List.mem_append, List.mem_flatMap,
        List.mem_singleton, exists_eq_right'] at hx
      rcases hx with hx | hx
      · exact .through (m := expr e) (by simp [hparts, exprs]) (Expr.renders_element hx)
      · exact .part (by simp [hparts, exprs, hx])

theorem renders_inSubquery (hd : d.LacksRows) {e : Expr} {q : Query} {negated : Bool}
    (hok : (Render.predicate d (.inSubquery e q negated)).failure = none) {x : Expr}
    (hx : x ∈ e.elements) : Renders d (.expr x) (.predicate (.inSubquery e q negated)) := by
  cases htuple : e.isTuple with
  | true =>
      rw [Render.predicate, Render.inSubquery_eq, RowValue.isTuple_operand, htuple,
        Render.elements_operand, hd.quantified] at hok
      refine .part ?_
      rw [Node.parts, parts, htuple, hd.quantified]
      exact Comparison.renders_moved hd rfl hok hx
  | false =>
      exact .through (m := expr e) (by simp [Node.parts, parts, htuple]) (Expr.renders_element hx)

theorem renders_between (hd : d.LacksRows) {e low high : Expr} {negated : Bool}
    (hok : (Render.predicate d (.between e low high negated)).failure = none) {x : Expr}
    (hx : x ∈ e.elements ++ low.elements ++ high.elements) :
    Renders d (.expr x) (.predicate (.between e low high negated)) := by
  cases hrows : e.isTuple || low.isTuple || high.isTuple with
  | true =>
      have hparts : (Node.predicate (.between e low high negated)).parts d =
          rows e.elements .greaterThanOrEqual low.elements ++
            rows e.elements .lessThanOrEqual high.elements := by
        rw [Node.parts, parts, hrows, hd.constructor]
        rfl
      have harity {bound : Expr} (h : bound = low ∨ bound = high) : e.arity = bound.arity := by
        refine aligned hok (e, bound) ?_
        rw [compared, hrows, hd.constructor]
        rcases h with rfl | rfl <;> simp
      refine .part ?_
      rw [hparts]
      simp only [List.append_assoc, List.mem_append] at hx
      rcases hx with hx | hx | hx
      · exact List.mem_append_left _ (mem_rows rfl (harity (.inl rfl)) (List.mem_append_left _ hx))
      · exact List.mem_append_left _ (mem_rows rfl (harity (.inl rfl)) (List.mem_append_right _ hx))
      · exact List.mem_append_right _
          (mem_rows rfl (harity (.inr rfl)) (List.mem_append_right _ hx))
  | false =>
      have hparts : (Node.predicate (.between e low high negated)).parts d =
          exprs [e, low, high] := by
        rw [Node.parts, parts, hrows]
        rfl
      obtain ⟨b, hb, hx⟩ : ∃ b ∈ [e, low, high], x ∈ b.elements := by simpa using hx
      exact .through (m := expr b) (by rw [hparts]; exact List.mem_map_of_mem hb)
        (Expr.renders_element hx)

theorem renders_nullCheck {e : Expr} {negated : Bool} {x : Expr} (hx : x ∈ e.elements) :
    Renders d (.expr x) (.predicate (.nullCheck e negated)) := by
  by_cases hlong : (e.isTuple && 1 < e.elements.length) = true
  · exact .part (by rw [Node.parts, parts, if_pos hlong]; exact List.mem_map_of_mem hx)
  · exact .through (m := expr e) (by simp [Node.parts, parts, hlong]) (Expr.renders_element hx)

/-- Where a row is nested in a condition, it is written by itself, or nothing is. -/
theorem renders_nested (hd : d.LacksRows) (p : Predicate) (hok : (Render.predicate d p).failure = none)
    (h : p.nestsRow d = true) :
    ∃ x, x.holdsRow = true ∧ Renders d (.expr x) (.predicate p) := by
  have hmember {m : Predicate} (hm : Node.predicate m ∈ (Node.predicate p).parts d) :
      (Render.predicate d m).failure = none :=
    (Renders.part hm).inside.failure hok
  match p, h with
  | .comparison l op r, h =>
      simp only [nestsRow, Bool.and_eq_true, Bool.not_eq_true', List.any_eq_true] at h
      obtain ⟨hpairs, x, hx, hrow⟩ := h
      exact ⟨x, hrow, Comparison.renders_nested hd hpairs hok hx hrow⟩
  | .inList e items _, h => exact renders_list hd hok h
  | .inSubquery e q _, h =>
      obtain ⟨x, hx, hrow⟩ := List.any_eq_true.1 h
      exact ⟨x, hrow, renders_inSubquery hd hok hx⟩
  | .between e low high _, h =>
      obtain ⟨x, hx, hrow⟩ := List.any_eq_true.1 h
      exact ⟨x, hrow, renders_between hd hok hx⟩
  | .nullCheck e _, h =>
      obtain ⟨x, hx, hrow⟩ := List.any_eq_true.1 h
      exact ⟨x, hrow, renders_nullCheck hx⟩
  | .negated q, h =>
      have hq : Node.predicate q ∈ (Node.predicate (.negated q)).parts d :=
        List.mem_singleton_self _
      obtain ⟨x, hrow, hx⟩ := renders_nested hd q (hmember hq) h
      exact ⟨x, hrow, .through hq hx⟩
  | .junction nature ps, h =>
      rw [nestsRow, anyNestsRow_eq, List.any_eq_true] at h
      obtain ⟨q, hmem, hnests⟩ := h
      have hq : Node.predicate q ∈ (Node.predicate (.junction nature ps)).parts d :=
        List.mem_map_of_mem hmem
      obtain ⟨x, hrow, hx⟩ := renders_nested hd q (hmember hq) hnests
      exact ⟨x, hrow, .through hq hx⟩
termination_by sizeOf p
decreasing_by
  · decreasing_tactic
  · have := List.sizeOf_lt_of_mem hmem
    decreasing_tactic

end Predicate

/-- Where rows are not understood, a condition over rows is rendered without a row, unless a row is
nested in it. Then that row is written as it is. -/
theorem rows_expanded (hd : d.LacksRows) (p : Predicate) :
    (p.OfRows d → p.nestsRow d = false → (Render.predicate d p).Rowless) ∧
    (p.nestsRow d = true → (Render.predicate d p).failure = none →
      ∃ es : List Expr, 1 < es.length ∧ Renders d (.expr (.tuple es)) (.predicate p) ∧
        (Output.list (es.map (Render.expression d))).parenthesized.pieces <:+:
          (Render.predicate d p).pieces) := by
  refine ⟨fun h hflat => h.rowless hd hflat, fun hnests hok => ?_⟩
  obtain ⟨x, hrow, hx⟩ := p.renders_nested hd hok hnests
  obtain ⟨es, hlen, hes⟩ := x.renders_row d hrow
  have hrenders := hes.trans hx
  refine ⟨es, hlen, hrenders, ?_⟩
  have hpieces := hrenders.inside.pieces hok
  rwa [Node.output, Render.expression, Render.operand, Operand.output,
    Render.operandOutputs_operands] at hpieces

theorem rows_expanded_nested :
    let columns (names : List String) : List Expr := names.map (.column none)
    let nested : Predicate := .comparison (.tuple [.tuple (columns ["a", "b"]), .column none "c"])
      .equal (.tuple [.tuple (columns ["x", "y"]), .column none "z"])
    let flat : Predicate := .comparison (.tuple (columns ["a", "b"])) .equal
      (.tuple (columns ["x", "y"]))
    (Render.predicate .timesten flat).Rowless ∧
      ∃ es : List Expr, 1 < es.length ∧
        Renders .timesten (.expr (.tuple es)) (.predicate nested) := by
  intro columns nested flat
  have hd : Dialect.timesten.LacksRows := by decide
  have hcolumns (names : List String) : (Expr.tuple (columns names)).OfRows .timesten := by
    refine .tuple (List.forall_mem_map.2 fun n _ => .value rfl ?_)
    exact Keeps.name n
  have hok : (Render.predicate .timesten nested).failure = none := by
    rw [Render.predicate, Comparison.render_lacking hd]
    change (Comparison.tuples _ _ _ .equal _).failure = none
    rw [Comparison.tuples.eq_def]
    decide
  obtain ⟨es, hlen, hes, -⟩ := (rows_expanded hd nested).2 (by decide) hok
  exact ⟨(rows_expanded hd flat).1 (.comparison _ (hcolumns _) (hcolumns _)) (by decide), es, hlen,
    hes⟩

end DialectSql
