import DialectSql.Proofs.Rendered.Table

namespace DialectSql

open Output

/-- The operator of a test of distinctness, where it is written. -/
def ComparisonOperator.written (op : ComparisonOperator) : List Output :=
  if op.isDistinctness then [.word op.sql] else []

theorem ComparisonOperator.written_ordinary {op : ComparisonOperator}
    (h : op.isDistinctness = false) : op.written = [] := by
  rw [written, h]
  rfl

namespace Comparison

variable (d : Dialect)

theorem plainEach_eq (op : ComparisonOperator) (ls rs : List Operand) :
    plainEach op ls rs = (ls.zip rs).map fun p => plain p.1 op p.2 := by
  induction ls generalizing rs with
  | nil => rfl
  | cons l ls ih =>
      cases rs with
      | nil => rfl
      | cons r rs => exact congrArg _ (ih rs)

theorem renderEach_eq (op : ComparisonOperator) (ls rs : List Operand) :
    renderEach d op ls rs = (ls.zip rs).map fun p => render d p.1 op p.2 := by
  induction ls generalizing rs with
  | nil => rw [renderEach.eq_def]; rfl
  | cons l ls ih =>
      cases rs with
      | nil => rw [renderEach.eq_def]; rfl
      | cons r rs => rw [renderEach, ih rs, List.zip_cons_cons, List.map_cons]

end Comparison

theorem Render.operands_eq_map (d : Dialect) (es : List Expr) :
    Render.operands d es = es.map (Render.operand d) := by
  induction es with
  | nil => rfl
  | cons e es ih => rw [Render.operands, ih, List.map_cons]

theorem Comparison.renderEach_operands (d : Dialect) (op : ComparisonOperator) (ls rs : List Expr) :
    renderEach d op (Render.operands d ls) (Render.operands d rs) =
      (ls.zip rs).map fun p => Render.predicate d (.comparison p.1 op p.2) := by
  rw [renderEach_eq, Render.operands_eq_map, Render.operands_eq_map, List.zip_map, List.map_map]
  simp [Function.comp_def, Render.predicate]

namespace Output.Composed

open Comparison Node

variable (d : Dialect)

theorem plain (l : Operand) (op : ComparisonOperator) (r : Operand) :
    Composed (op.written ++ [l.output, r.output]) (Comparison.plain l op r) := by
  have hop : Composed op.written (.word op.sql) := by
    cases op with
    | distinct | notDistinct => exact part _
    | _ => exact word rfl
  refine (((part l.output).append hop).append (part r.output)).congr fun m => ?_
  simp only [List.mem_append, List.mem_cons, List.not_mem_nil, or_false]
  tauto

theorem plain_ordinary {op : ComparisonOperator} (hop : op.isDistinctness = false) (l r : Operand) :
    Composed [l.output, r.output] (Comparison.plain l op r) := by
  simpa [op.written_ordinary hop] using plain l op r

theorem nullTest (e : Operand) (negated : Bool) :
    Composed [e.output] (Comparison.nullTest e negated) := by
  cases negated <;> exact (part e.output).before (word rfl)

theorem distinctByNullTests (l : Operand) (op : ComparisonOperator) (r : Operand) :
    Composed [l.output, r.output] (Comparison.distinctByNullTests l op r) := by
  have hboth {a b : Bool} {o : Output} (h : Composed [l.output, r.output] o) :
      Composed [l.output, r.output]
        (o ++ .word " or " ++ Comparison.nullTest l a ++ .word " and " ++
          Comparison.nullTest r b) := by
    refine ((((h.before (word rfl)).append (nullTest l a)).before (word rfl)).append
      (nullTest r b)).congr fun m => ?_
    simp only [List.mem_append, List.mem_cons, List.not_mem_nil, or_false]
    tauto
  rw [Comparison.distinctByNullTests]
  split
  · exact (hboth (hboth (plain_ordinary rfl l r))).parenthesized
  · exact (hboth (plain_ordinary rfl l r)).parenthesized

theorem distinctByIntersect (op : ComparisonOperator) (ls rs : List Operand) :
    Composed (operandOutputs ls ++ operandOutputs rs)
      (Comparison.distinctByIntersect d ls op rs) := by
  rw [Comparison.distinctByIntersect]
  refine checked fun _ => ?_
  split
  · exact fail _ _
  · rename_i dual _
    have hnot := when (op == .distinct) (word (w := "not ") rfl)
    have hleft := (hnot.append (word (w := "exists (select ") rfl)).behind
      (list (operandOutputs ls))
    have hfrom := (word (w := " from ") rfl).append (name dual)
    have hall := ((((hleft.before hfrom).before (word (w := " intersect select ") rfl)).append
      (list (operandOutputs rs))).before hfrom).before (word (w := ")") rfl)
    simpa only [Output.append_assoc] using hall

/-- The outputs of the elements of two rows. -/
def pairOutputs (ls rs : List Operand) : List Output :=
  (ls.zip rs).flatMap fun p => [p.1.output, p.2.output]

theorem pairOutputs_cons (l r : Operand) (ls rs : List Operand) :
    pairOutputs (l :: ls) (r :: rs) = l.output :: r.output :: pairOutputs ls rs := rfl

theorem pairOutputs_of_unpaired {ls rs : List Operand}
    (h : ∀ l ls' r rs', ls = l :: ls' → rs = r :: rs' → False) : pairOutputs ls rs = [] := by
  obtain rfl | rfl := Comparison.eq_nil_of_unpaired h
  · rfl
  · rw [pairOutputs, List.zip_nil_right, List.flatMap_nil]

section

variable {op : ComparisonOperator} (hop : op.isDistinctness = false)

include hop

theorem plainEach {w : String} (hw : Lexeme.isFixed w = true)
    (ls rs : List Operand) :
    Composed (pairOutputs ls rs) (.joined w (Comparison.plainEach op ls rs)) := by
  rw [plainEach_eq]
  exact (AllComposed.map fun p _ => plain_ordinary hop p.1 p.2).composed (joined hw _)

theorem lexicographic (ls rs : List Operand) :
    Composed (pairOutputs ls rs) (Comparison.lexicographic op ls rs) := by
  have hsharper : op.sharper.isDistinctness = false := by cases op <;> first | rfl | cases hop
  fun_induction Comparison.lexicographic op ls rs with
  | case1 l r rs => exact plain_ordinary hop l r
  | case2 l ls r rs hne ih =>
      have hequal : Composed [l.output, r.output] (Comparison.plain l .equal r) :=
        plain_ordinary rfl l r
      have hfirst := ((plain_ordinary hsharper l r).before (word (w := " or ") rfl)).append hequal
      have hrest := ((hfirst.before (word (w := " and (") rfl)).append ih).before
        (word (w := ")") rfl)
      refine hrest.congr fun m => ?_
      simp only [pairOutputs_cons, List.mem_append, List.mem_cons, List.not_mem_nil, or_false]
      tauto
  | case3 ls rs hone hmore =>
      rw [pairOutputs_of_unpaired hmore]
      exact empty

theorem leadingBound (ls rs : List Operand) :
    Composed (pairOutputs ls rs) (Comparison.leadingBound op ls rs) := by
  have hsharper : op.sharper.isDistinctness = false := by cases op <;> first | rfl | cases hop
  have hbroader : op.broader.isDistinctness = false := by cases op <;> first | rfl | cases hop
  fun_induction Comparison.leadingBound op ls rs with
  | case1 l r rs => exact plain_ordinary hop l r
  | case2 l ls r rs hne ih =>
      have hfirst := (((plain_ordinary hbroader l r).before (word (w := " and (") rfl)).append
        (plain_ordinary hsharper l r)).before (word (w := " or ") rfl)
      refine ((hfirst.append ih).before (word (w := ")") rfl)).congr fun m => ?_
      simp only [pairOutputs_cons, List.mem_append, List.mem_cons, List.not_mem_nil, or_false]
      tauto
  | case3 ls rs hone hmore =>
      rw [pairOutputs_of_unpaired hmore]
      exact empty

end

theorem outputs_exprs (es : List Expr) :
    (exprs es).map (Node.output d) = operandOutputs (Render.operands d es) := by
  rw [Render.operandOutputs_operands, exprs, List.map_map]
  rfl

theorem outputs_rows {op : ComparisonOperator} (hop : op.isDistinctness = false)
    (ls rs : List Expr) : (rows ls op rs).map (Node.output d) =
      pairOutputs (Render.operands d ls) (Render.operands d rs) := by
  rw [rows_ordinary hop, pairOutputs, List.map_flatMap, Render.operands_eq_map,
    Render.operands_eq_map, List.zip_map, List.flatMap_map]
  rfl

theorem outputs_rows_distinct {op : ComparisonOperator} (hop : op.isDistinctness = true)
    (ls rs : List Expr) : (rows ls op rs).map (Node.output d) =
      Comparison.renderEach d op (Render.operands d ls) (Render.operands d rs) := by
  rw [renderEach_operands, rows_distinct hop, List.map_map]
  rfl

/-- Two rows are compared by their elements. -/
theorem tuples (ls : List Expr) (op : ComparisonOperator) (rs : List Expr) (bounded : Bool) :
    Composed ((rows ls op rs).map (Node.output d))
      (Comparison.tuples d (Render.operands d ls) (Render.operands d rs) op bounded) := by
  rw [Comparison.tuples.eq_def]
  refine checked fun _ => ?_
  split
  · exact fail _ _
  refine Composed.parenthesized ?_
  cases hop : op.isDistinctness with
  | true =>
      rw [outputs_rows_distinct d hop]
      cases op with
      | distinct => exact joined rfl _
      | notDistinct => exact joined rfl _
      | _ => cases hop
  | false =>
      rw [outputs_rows d hop]
      cases op with
      | equal => exact plainEach rfl rfl _ _
      | notEqual => exact plainEach rfl rfl _ _
      | distinct | notDistinct => cases hop
      | _ =>
          cases bounded with
          | true => exact leadingBound rfl _ _
          | false => exact lexicographic rfl _ _

theorem selectTuple (ss : List Expr) (op : ComparisonOperator) (ls : List Expr) :
    Composed ((if writesRows d then op.written else []) ++
        (selectTupleParts d ss op ls).map (Node.output d))
      (Comparison.selectTuple d (Render.operands d ss) (Render.operands d ls) op) := by
  rw [selectTupleParts]
  cases hrows : writesRows d with
  | false =>
      obtain ⟨bounded, hvalues⟩ := selectTuple_of_values hrows (Render.operands d ss)
        (Render.operands d ls) op
      rw [hvalues]
      exact tuples d ss op ls bounded
  | true =>
      have hop : Composed op.written (.word op.sql) := by
        cases op with
        | distinct | notDistinct => exact part _
        | _ => exact word rfl
      rw [selectTuple_of_writesRows hrows, if_pos rfl, if_pos rfl, exprs, List.map_append,
        List.map_append, ← exprs, ← exprs, outputs_exprs, outputs_exprs]
      refine ((((Composed.checkArity _ _).behind (list _).parenthesized).append hop).append
        (list _).parenthesized).congr fun m => ?_
      simp only [List.mem_append]
      tauto

/-- A row is compared with the rows of a query inside it. -/
theorem subquery (ls : List Expr) (op : ComparisonOperator) (q : Query) (quantifier : Quantifier)
    (negated : Bool) :
    Composed ((if writesRows d then op.written else []) ++
        (subqueryParts d ls op q).map (Node.output d))
      (Comparison.subquery d (Render.operands d ls) (Render.query d none q) op quantifier
        negated) := by
  have hinvert : op.invert.written = op.written := by cases op <;> rfl
  cases q with
  | group g =>
      rw [Render.query, Comparison.subquery.eq_def]
      exact fail _ _
  | spec s =>
      obtain ⟨out, hspec⟩ := Render.querySpec_spec d s
      rw [Render.query, hspec]
      cases hmovable : s.isMovable with
      | false =>
          rw [Comparison.subquery.eq_def]
          exact fail _ _
      | true =>
          have hnot (condition : Bool) := when condition (word (w := "not ") rfl)
          have hmatch := (hnot (quantifier == .all)).behind
            (selectTuple d s.columns op.invert ls)
          have hcondition : Composed ((given s.restriction).map (Node.output d) ++
              ((if writesRows d then op.invert.written else []) ++
                (selectTupleParts d s.columns op.invert ls).map (Node.output d)))
              (rowCondition d (s.movedRestriction d) (Render.operands d s.columns)
                (Render.operands d ls) op (quantifier == .all)) := by
            refine append ?_ hmatch
            rw [QuerySpec.movedRestriction, given.eq_def]
            cases s.restriction with
            | none => exact empty
            | some p =>
                cases hp : p.isEmpty with
                | true => simpa [hp] using empty
                | false =>
                    simpa [hp, Node.output] using
                      (part (Render.predicate d p)).parenthesized.before (word (w := " and ") rfl)
          have hexisting := (((word (w := "exists (select 1") rfl).behind
            (((Composed.tables d s).before (word (w := " where ") rfl)).append hcondition))).before
            (word (w := ")") rfl)
          rw [subquery_movable, subqueryParts, List.map_append, List.map_append]
          refine ((Composed.checkArity _ _).behind ((hnot negated).behind
            ((hnot (quantifier == .all)).behind hexisting))).congr fun m => ?_
          rw [hinvert]
          simp only [List.mem_append]
          tauto

end Output.Composed

end DialectSql
