import DialectSql.Proofs.Rendered.Traversal

namespace DialectSql

open Output Node

namespace Comparison

variable (d : Dialect)

/-- A value is rendered in a comparison, whatever it is compared with. -/
theorem expr_mem_parts {lhs : Expr} (h : lhs.isTuple = false) (op : ComparisonOperator)
    (rhs : Expr) : expr lhs ∈ parts d lhs op rhs := by
  have hstandard : expr lhs ∈ standardParts d lhs op rhs := by
    cases rhs <;> simp [standardParts, h]
  rw [parts]
  cases d.strategies.comparison with
  | standard => exact hstandard
  | intersect =>
      have hself : lhs ∈ lhs.elements := by simp [Expr.elements_of_value h]
      simp only
      split
      · exact List.mem_map_of_mem (List.mem_append_left _ hself)
      · exact hstandard
  | lexicographic => simpa [h] using hstandard

/-- Each column of a query is rendered in the comparison with equally many elements. -/
theorem renders_column {cs ls : List Expr} (hlen : cs.length = ls.length) (op : ComparisonOperator)
    {e : Expr} (he : e ∈ cs) (hvalue : op.isDistinctness = true → e.isTuple = false) :
    ∃ k ∈ selectTupleParts d cs op ls, Renders d (.expr e) k := by
  rw [selectTupleParts]
  split
  · exact ⟨_, List.mem_map_of_mem (List.mem_append_left ls he), .here⟩
  · rw [← List.map_fst_zip hlen.le] at he
    obtain ⟨⟨e, l⟩, hpair, rfl⟩ := List.mem_map.1 he
    cases hop : op.isDistinctness with
    | false =>
        rw [rows_ordinary hop]
        exact ⟨_, List.mem_flatMap.2 ⟨_, hpair, List.mem_cons_self⟩, .here⟩
    | true =>
        rw [rows_distinct hop]
        exact ⟨_, List.mem_map_of_mem hpair, .through (expr_mem_parts d (hvalue hop) op l) .here⟩

variable {d} {ls : List Expr} {s : QuerySpec} {op : ComparisonOperator} {quantifier : Quantifier}
  {negated : Bool}

theorem subquery_of_not_movable (h : s.isMovable = false) :
    subquery d (Render.operands d ls) (Render.querySpec d none s) op quantifier negated =
      .fail (.unsupported .tupleAgainstLimitedSubquery) := by
  obtain ⟨out, hspec⟩ := Render.querySpec_spec d s
  rw [hspec, h, subquery.eq_def]
  rfl

/-- The comparison with a query is rendered where the query neither merges nor limits rows by its
clauses and its tables, its restriction and the comparison with its columns are rendered. -/
theorem failure_subquery_iff :
    (subquery d (Render.operands d ls) (Render.querySpec d none s) op quantifier negated).failure =
        none ↔
      s.isMovable = true ∧ ls.length = s.columns.length ∧
        (Render.fromClause d (Render.tableGroups d s.roots)).failure = none ∧
        (∀ r, s.movedRestriction d = some r → r.failure = none) ∧
        (selectTuple d (Render.operands d s.columns) (Render.operands d ls) op.invert).failure =
          none := by
  obtain ⟨out, hspec⟩ := Render.querySpec_spec d s
  constructor
  · intro hok
    cases hmovable : s.isMovable with
    | false =>
        rw [subquery_of_not_movable hmovable] at hok
        cases hok
    | true =>
        rw [hspec, hmovable] at hok
        obtain ⟨hrestriction, hmatch⟩ := failure_subquery hok
        rw [subquery_movable] at hok
        obtain ⟨harity, hexists⟩ := failure_append_eq_none.1 hok
        have hexisting := (failure_append_eq_none.1 (failure_append_eq_none.1 hexists).2).2
        have hlen := (failure_checkArity _ _).1 harity
        rw [Render.length_operands, Render.length_operands] at hlen
        exact ⟨rfl, hlen, ((failure_existing _ _).1 hexisting).1, hrestriction, hmatch⟩
  · rintro ⟨hmovable, hlen, hsource, hrestriction, hmatch⟩
    rw [hspec, hmovable]
    refine subquery_complete quantifier negated ?_ hsource hrestriction hmatch
    rw [Render.length_operands, Render.length_operands, hlen]

/-- A comparison other than by distinctness is rendered with columns of any kind. -/
theorem failure_columns (hop : op.isDistinctness = false) (hrows : Comparable d ls s.columns) :
    (selectTuple d (Render.operands d s.columns) (Render.operands d ls) op.invert).failure =
      none := by
  have houtputs {es : List Expr} (hes : ∀ e ∈ es, (Render.expression d e).failure = none) :
      ∀ o ∈ operandOutputs (Render.operands d es), o.failure = none := by
    rw [Render.operandOutputs_operands]
    simpa using hes
  have hne : Render.operands d s.columns ≠ [] := by
    rw [← List.length_pos_iff, Render.length_operands, ← hrows.arity]
    exact List.length_pos_iff.2 hrows.nonempty
  refine failure_selectTuple (Emulation.isDistinctness_invert.trans hop) hne ?_
    (houtputs hrows.right) (houtputs hrows.left)
  rw [Render.length_operands, Render.length_operands, hrows.arity]

theorem column_inside (hlen : s.columns.length = ls.length) {e w : Expr} (he : e ∈ s.columns)
    (hvalue : op.isDistinctness = true → e.isTuple = false) (hw : Renders d (.expr w) (.expr e)) :
    (Render.expression d w).Inside (rowCondition d (s.movedRestriction d)
      (Render.operands d s.columns) (Render.operands d ls) op (quantifier == .all)) := by
  obtain ⟨k, hk, hrenders⟩ := renders_column d hlen op.invert he fun hop =>
    hvalue (Emulation.isDistinctness_invert ▸ hop)
  have hmatch := (Composed.selectTuple d s.columns op.invert ls).inside _
    (List.mem_append_right _ (List.mem_map_of_mem hk))
  exact (((hw.trans hrenders).inside.trans hmatch).right _).right _

end Comparison

/-- A comparison of a tuple with a query is ruled out by the clauses of the query alone. Whatever its
select list holds, aggregates and windows among it, is moved into the condition. -/
theorem columns_moved (d : Dialect) (ls : List Expr) (s : QuerySpec) (op : ComparisonOperator)
    (quantifier : Quantifier) (negated : Bool) :
    let source := Render.fromClause d (Render.tableGroups d s.roots)
    let matched := Comparison.selectTuple d (Render.operands d s.columns) (Render.operands d ls)
      op.invert
    let o := Comparison.subquery d (Render.operands d ls) (Render.querySpec d none s) op quantifier
      negated
    (s.isMovable = false → o = .fail (.unsupported .tupleAgainstLimitedSubquery)) ∧
      (o.failure = none ↔ s.isMovable = true ∧ ls.length = s.columns.length ∧
        source.failure = none ∧ (∀ r, s.movedRestriction d = some r → r.failure = none) ∧
        matched.failure = none) ∧
      (op.isDistinctness = false → Comparable d ls s.columns → matched.failure = none) ∧
      (o.failure = none → ∃ condition,
        o = .when negated (.word "not ") ++ (.when (quantifier == .all) (.word "not ") ++
          .existing source condition) ∧
        ∀ e ∈ s.columns, (op.isDistinctness = true → e.isTuple = false) →
          ∀ w, Renders d (.expr w) (.expr e) → (Render.expression d w).Inside condition) := by
  intro source matched o
  refine ⟨Comparison.subquery_of_not_movable, Comparison.failure_subquery_iff,
    Comparison.failure_columns, fun hok => ?_⟩
  have hlen := (Comparison.failure_subquery_iff.1 hok).2.1
  obtain ⟨out, hspec⟩ := Render.querySpec_spec d s
  refine ⟨Comparison.rowCondition d (s.movedRestriction d) (Render.operands d s.columns)
    (Render.operands d ls) op (quantifier == .all), ?_,
    fun e he hvalue w hw => Comparison.column_inside hlen.symm he hvalue hw⟩
  simp only [o, hspec] at hok ⊢
  exact Comparison.subquery_eq d hok

/-- A number of rows and the number of a row, which are moved into the condition of a query. -/
theorem columns_moved_count :
    let number := Expr.windowed (.call "row_number" []) [] [⟨.column none "x", .asc, none⟩] none
    let s := ((QuerySpec.empty.select .countStar none).select (number.plus (.integer 1)) none).addRoot
      (.table "u")
    let o := Comparison.subquery .timesten (Render.operands .timesten Emulation.pair)
      (Render.querySpec .timesten none s) .equal .any false
    o.failure = none ∧
      Translation.sql .question o.pieces =
        "exists (select 1 from u where (count(*)=a and row_number() over (order by x) + 1=b))" ∧
      ∃ condition, o = .existing
          (Render.fromClause .timesten (Render.tableGroups .timesten s.roots)) condition ∧
        (Render.expression .timesten .countStar).Inside condition ∧
        (Render.expression .timesten number).Inside condition := by
  intro number s o
  obtain ⟨-, hiff, hmatched, hmoved⟩ := columns_moved .timesten Emulation.pair s .equal .any false
  have hrows : Comparable .timesten Emulation.pair s.columns :=
    ⟨by simp [Emulation.pair], rfl, by decide, by decide⟩
  have hunrestricted : s.movedRestriction .timesten = none := rfl
  have hrestriction : ∀ r, s.movedRestriction .timesten = some r → r.failure = none := by
    simp [hunrestricted]
  have hok : o.failure = none := hiff.2 ⟨rfl, rfl, by decide, hrestriction, hmatched rfl hrows⟩
  obtain ⟨condition, hcondition, hinside⟩ := hmoved hok
  have hcolumns : s.columns = [.countStar, number.plus (.integer 1)] := rfl
  rw [hcolumns] at hinside
  have hall : (Quantifier.any == .all) = false := rfl
  have hnot : Output.when false (.word "not ") = .empty := rfl
  rw [hall, hnot, empty_append, empty_append] at hcondition
  refine ⟨hok, ?_, condition, hcondition, hinside _ List.mem_cons_self (fun _ => rfl) _ .here,
    hinside _ (List.mem_cons_of_mem _ List.mem_cons_self) (fun _ => rfl) _
      (.through List.mem_cons_self .here)⟩
  simp only [o, Comparison.subquery.eq_def, Comparison.selectTuple.eq_def, Comparison.tuples.eq_def]
  decide +kernel

end DialectSql
