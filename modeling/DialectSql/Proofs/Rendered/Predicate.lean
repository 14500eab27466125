import DialectSql.Proofs.Rendered.Comparison

namespace DialectSql

open Output

theorem Render.operand_scalar (d : Dialect) {e : Expr} (h : e.isScalar = true) :
    ∃ o, Render.operand d e = .scalar o := by
  cases e with
  | tuple | subquery | quantified => cases h
  | «case» branches otherwise => cases otherwise <;> exact ⟨_, rfl⟩
  | _ => exact ⟨_, rfl⟩

namespace Render

theorem nullCheck_eq (e : Operand) (negated : Bool) :
    nullCheck e negated =
      if e.isTuple && 1 < e.elements.length then
        (Output.joined " and " (e.elements.map (Comparison.nullTest · negated))).parenthesized
      else Comparison.nullTest e negated := by
  cases e with
  | tuple es =>
      by_cases hlen : 1 < es.length <;>
        simp [nullCheck, Operand.isTuple, Operand.elements, hlen]
  | _ => rfl

theorem inList_eq (d : Dialect) (e : Operand) (items : List Operand) (negated : Bool) :
    inList d e items negated =
      if items.isEmpty then .word (if negated then "1=1" else "1=0")
      else
        let native := e.output ++ .word (membership negated) ++ .list (operandOutputs items) ++
          .word ")"
        if e.isTuple then
          checkArities e.elements.length items ++
            if d.capabilities.rowValueInList then native
            else
              .when negated (.word "not ") ++ (Output.joined " or " (items.map fun i =>
                Comparison.tuples d e.elements i.elements .equal false)).parenthesized
        else native := by
  cases e <;> rfl

theorem inSubquery_eq (d : Dialect) (e : Operand) (q : Subquery) (negated : Bool) :
    inSubquery d e q negated =
      if e.isTuple && !d.capabilities.rowValueInQuantified then
        Comparison.subquery d e.elements q .equal .any negated
      else e.output ++ .word (membership negated) ++ q.output ++ .word ")" := by
  cases e <;> cases hcapability : d.capabilities.rowValueInQuantified <;>
    simp [inSubquery, Operand.isTuple, Operand.elements, hcapability]

theorem predicates_eq_map (d : Dialect) (ps : List Predicate) :
    predicates d ps = ps.map fun p => (isCompound p, predicate d p) := by
  induction ps with
  | nil => rfl
  | cons p ps ih => rw [predicates, ih, List.map_cons]

end Render

namespace Comparison

/-- Whether a test of distinctness is written with its operator by the standard rule, and neither
written out by other tests nor left to tests of the elements. -/
def standardWrites (d : Dialect) (lhs rhs : Expr) : Bool :=
  match rhs with
  | .quantified .. => !lhs.isTuple || d.capabilities.rowValueInQuantified || writesRows d
  | .subquery _ => !lhs.isTuple || d.capabilities.rowValueConstructor
  | .tuple _ => d.capabilities.rowValueConstructor && d.capabilities.distinctFrom == .native
  | _ => d.capabilities.distinctFrom == .native

def writesDistinctness (d : Dialect) (lhs rhs : Expr) : Bool :=
  match d.strategies.comparison with
  | .standard => standardWrites d lhs rhs
  | .intersect => false
  | .lexicographic => !(lhs.isTuple && rhs.isTuple) && standardWrites d lhs rhs

variable (d : Dialect)

/-- A comparison whose left operand is no tuple. -/
theorem standard_value {l : Operand} (hl : l.isTuple = false) (op : ComparisonOperator)
    (r : Operand) : standard d l op r =
      match r with
      | .tuple rs => .fail (.tupleArity 1 rs.length)
      | .scalar _ =>
        if op.isDistinctness && d.capabilities.distinctFrom == .emulated then
          distinctByNullTests l op r
        else plain l op r
      | _ => plain l op r := by
  cases l with
  | tuple => cases hl
  | _ => cases r <;> rw [standard.eq_def]

variable {d} in
theorem render_value (hrule : d.strategies.comparison = .lexicographic) {l r : Operand}
    (h : (l.isTuple && r.isTuple) = false) (op : ComparisonOperator) :
    render d l op r = standard d l op r := by
  rw [render.eq_def, hrule]
  cases l with
  | tuple => cases r <;> first | rfl | cases h
  | _ => rfl

end Comparison

namespace Output.Composed

open Comparison Node

variable (d : Dialect)

theorem standard_value {lhs : Expr} (hl : lhs.isTuple = false) (op : ComparisonOperator)
    (rhs : Expr) :
    Composed ((if standardWrites d lhs rhs then op.written else []) ++
        [Render.expression d lhs, Render.expression d rhs])
      (Comparison.standard d (Render.operand d lhs) op (Render.operand d rhs)) := by
  have hplain := plain (Render.operand d lhs) op (Render.operand d rhs)
  rw [Comparison.standard_value d (by rw [RowValue.isTuple_operand, hl])]
  by_cases hscalar : rhs.isScalar = true
  · obtain ⟨o, ho⟩ := Render.operand_scalar d hscalar
    have hwrites : standardWrites d lhs rhs = (d.capabilities.distinctFrom == .native) := by
      cases rhs <;> first | rfl | cases hscalar
    rw [hwrites, ho]
    dsimp only
    rw [← ho]
    cases hop : op.isDistinctness with
    | false =>
        rw [op.written_ordinary hop, ite_self]
        exact plain_ordinary hop _ _
    | true =>
        cases d.capabilities.distinctFrom with
        | native => exact hplain
        | emulated => exact distinctByNullTests _ op _
  · cases rhs with
    | tuple rs => exact fail _ _
    | subquery q =>
        have hwrites : standardWrites d lhs (.subquery q) = true := by simp [standardWrites, hl]
        rw [hwrites, if_pos rfl]
        exact hplain
    | quantified quantifier q =>
        have hwrites : standardWrites d lhs (.quantified quantifier q) = true := by
          simp [standardWrites, hl]
        rw [hwrites, if_pos rfl]
        exact hplain
    | _ => exact absurd rfl hscalar

theorem standardParts_value {lhs : Expr} (hl : lhs.isTuple = false) (op : ComparisonOperator)
    (rhs : Expr) : standardParts d lhs op rhs = [expr lhs, expr rhs] := by
  rw [standardParts.eq_def]
  split <;> simp [hl]

/-- A tuple is compared with the rows of a query, natively or inside it. -/
theorem against (ls : List Expr) (op : ComparisonOperator) (q : Query) (quantifier : Quantifier)
    (rhs : Expr) (native : Bool) :
    Composed ((if native || writesRows d then op.written else []) ++
        (if !native then subqueryParts d ls op q else [expr (.tuple ls), expr rhs]).map
          (Node.output d))
      (if native then Comparison.plain (Render.operand d (.tuple ls)) op (Render.operand d rhs)
        else Comparison.subquery d (Render.operands d ls) (Render.query d none q) op quantifier
          false) := by
  cases native with
  | true => exact plain _ op _
  | false => exact subquery d ls op q quantifier false

theorem standard_tuples (ls : List Expr) (op : ComparisonOperator) (rs : List Expr) :
    Composed ((if standardWrites d (.tuple ls) (.tuple rs) then op.written else []) ++
        (standardParts d (.tuple ls) op (.tuple rs)).map (Node.output d))
      (Comparison.standard d (Render.operand d (.tuple ls)) op (Render.operand d (.tuple rs))) := by
  have hplain := plain (Render.operand d (.tuple ls)) op (Render.operand d (.tuple rs))
  rw [Render.operand, Render.operand, Comparison.standard.eq_def, standardWrites, standardParts]
  refine checked fun _ => ?_
  cases hop : op.isDistinctness with
  | false =>
      rw [op.written_ordinary hop, ite_self]
      cases d.capabilities.rowValueConstructor with
      | true => exact plain_ordinary hop _ _
      | false => exact tuples d ls op rs true
  | true =>
      cases d.capabilities.rowValueConstructor with
      | true =>
          cases d.capabilities.distinctFrom with
          | native => exact hplain
          | emulated => exact tuples d ls op rs true
      | false => exact tuples d ls op rs true

/-- The outputs of a comparison by the standard rule. -/
theorem standard (lhs : Expr) (op : ComparisonOperator) (rhs : Expr) :
    Composed ((if standardWrites d lhs rhs then op.written else []) ++
        (standardParts d lhs op rhs).map (Node.output d))
      (Comparison.standard d (Render.operand d lhs) op (Render.operand d rhs)) := by
  cases hl : lhs.isTuple with
  | false =>
      rw [standardParts_value d hl]
      exact standard_value d hl op rhs
  | true =>
      obtain ⟨ls, rfl⟩ := Expr.eq_tuple hl
      by_cases hscalar : rhs.isScalar = true
      · obtain ⟨o, ho⟩ := Render.operand_scalar d hscalar
        rw [ho, Render.operand, Comparison.standard.eq_def]
        exact fail _ _
      · cases rhs with
        | tuple rs => exact standard_tuples d ls op rs
        | subquery q =>
            have hwrites : standardWrites d (.tuple ls) (.subquery q) =
                (d.capabilities.rowValueConstructor || writesRows d) := by
              cases hcapability : d.capabilities.rowValueConstructor <;>
                simp [standardWrites, writesRows, Expr.isTuple, hcapability]
            have hall := against d ls op q .any (.subquery q) d.capabilities.rowValueConstructor
            rw [← hwrites] at hall
            rw [Render.operand, Render.operand, Comparison.standard.eq_def]
            exact hall
        | quantified quantifier q =>
            have hall := against d ls op q quantifier (.quantified quantifier q)
              d.capabilities.rowValueInQuantified
            rw [Render.operand, Render.operand, Comparison.standard.eq_def]
            exact hall
        | _ => exact absurd rfl hscalar

/-- The outputs of a comparison. -/
theorem comparison (lhs : Expr) (op : ComparisonOperator) (rhs : Expr) :
    Composed ((if writesDistinctness d lhs rhs then op.written else []) ++
        (Comparison.parts d lhs op rhs).map (Node.output d))
      (Comparison.render d (Render.operand d lhs) op (Render.operand d rhs)) := by
  have hstandard := standard d lhs op rhs
  rw [writesDistinctness, Comparison.parts]
  cases hrule : d.strategies.comparison with
  | standard =>
      rw [Comparison.render.eq_def, hrule]
      exact hstandard
  | intersect =>
      rw [Comparison.render.eq_def, hrule]
      dsimp only
      rw [Comparison.intersect.eq_def]
      cases hop : op.isDistinctness with
      | false =>
          rw [op.written_ordinary hop, ite_self] at hstandard
          exact hstandard
      | true =>
          simp only [if_true, exprs, List.map_append]
          rw [← exprs, ← exprs, outputs_exprs, outputs_exprs, Render.elements_operand,
            Render.elements_operand]
          exact distinctByIntersect d op _ _
  | lexicographic =>
      cases htuples : lhs.isTuple && rhs.isTuple with
      | true =>
          obtain ⟨hl, hr⟩ := Bool.and_eq_true_iff.1 htuples
          rw [Expr.eq_tuple_elements hl, Expr.eq_tuple_elements hr, Comparison.render.eq_def, hrule]
          exact tuples d lhs.elements op rhs.elements false
      | false =>
          rw [render_value hrule]
          · exact hstandard
          · rwa [RowValue.isTuple_operand, RowValue.isTuple_operand]

theorem nullCheck (e : Expr) (negated : Bool) :
    Composed ((Predicate.parts d (.nullCheck e negated)).map (Node.output d))
      (Render.nullCheck (Render.operand d e) negated) := by
  rw [Predicate.parts, Render.nullCheck_eq, RowValue.isTuple_operand, Render.elements_operand,
    Render.length_operands, RowValue.map_operands]
  split
  · rw [exprs, List.map_map]
    have hall := AllComposed.each (l := e.elements) fun x _ => nullTest (Render.operand d x) negated
    exact (hall.composed (joined rfl _)).parenthesized
  · exact nullTest _ negated

theorem membership {ms ns : List Output} {o l : Output} (negated : Bool) (hl : Composed ms l)
    (ho : Composed ns o) :
    Composed (ms ++ ns) (l ++ .word (Render.membership negated) ++ o ++ .word ")") := by
  have hword : Composed [] (.word (Render.membership negated)) := by
    cases negated <;> exact word rfl
  exact ((hl.before hword).append ho).before (word rfl)

theorem checkArities (n : Nat) (items : List Operand) :
    Composed [] (Render.checkArities n items) := by
  have hall := AllComposed.map (p := fun _ => []) (l := items) fun i _ =>
    checkArity n i.elements.length
  rw [List.flatMap_eq_nil_iff.2 fun _ _ => rfl] at hall
  exact hall.composed (concat _)

theorem inList (e : Expr) (items : List Expr) (negated : Bool) :
    Composed ((Predicate.parts d (.inList e items negated)).map (Node.output d))
      (Render.inList d (Render.operand d e) (Render.operands d items) negated) := by
  have hempty : (Render.operands d items).isEmpty = items.isEmpty := by cases items <;> rfl
  have hnative : Composed ((exprs (e :: items)).map (Node.output d))
      (Render.expression d e ++ .word (Render.membership negated) ++
        .list (operandOutputs (Render.operands d items)) ++ .word ")") := by
    rw [outputs_exprs]
    exact membership negated (part _) (list _)
  rw [Predicate.parts, Render.inList_eq, RowValue.isTuple_operand, Render.elements_operand,
    Render.length_operands, hempty]
  cases items.isEmpty with
  | true => cases negated <;> exact word rfl
  | false =>
      cases e.isTuple with
      | false => exact hnative
      | true =>
          refine (checkArities _ _).behind ?_
          cases d.capabilities.rowValueInList with
          | true => exact hnative
          | false =>
              have hall := AllComposed.map (l := items) fun i _ =>
                tuples d e.elements .equal i.elements false
              have hgroup := (hall.composed (joined (w := " or ") rfl _)).parenthesized
              simp only [RowValue.map_operands, Render.elements_operand]
              simpa [List.map_flatMap] using (when negated (word (w := "not ") rfl)).behind hgroup

theorem inSubquery (e : Expr) (q : Query) (negated : Bool) :
    Composed ((Predicate.parts d (.inSubquery e q negated)).map (Node.output d))
      (Render.inSubquery d (Render.operand d e) (Render.query d none q) negated) := by
  have hnative := membership negated (part (Render.expression d e))
    (part (Render.query d none q).output)
  rw [Predicate.parts, Render.inSubquery_eq, RowValue.isTuple_operand, Render.elements_operand]
  split
  · have hrows := subquery d e.elements .equal q .any negated
    rw [ComparisonOperator.written_ordinary rfl, ite_self] at hrows
    exact hrows
  · exact hnative

theorem between (e low high : Expr) (negated : Bool) :
    Composed ((Predicate.parts d (.between e low high negated)).map (Node.output d))
      (Render.between d (Render.operand d e) (Render.operand d low) (Render.operand d high)
        negated) := by
  rw [Predicate.parts, Render.between, RowValue.isTuple_operand, RowValue.isTuple_operand,
    RowValue.isTuple_operand]
  split
  · have hbounds := ((tuples d e.elements .greaterThanOrEqual low.elements true).before
      (word (w := " and ") rfl)).append (tuples d e.elements .lessThanOrEqual high.elements true)
    have hnot := when negated (word (w := "not ") rfl)
    simp only [Render.elements_operand, Render.length_operands, List.map_append]
    exact (((checkArity _ _).append (checkArity _ _)).append hnot).behind hbounds.parenthesized
  · have hword : Composed [] (.word (if negated then " not between " else " between ")) := by
      cases negated <;> exact word rfl
    have hrange := (((part (Render.expression d e)).before hword).append
      (part (Render.expression d low))).before (word (w := " and ") rfl)
    exact hrange.append (part (Render.expression d high))

theorem like {e pattern : Output} (escape : Option Char) (negated : Bool) :
    Composed [e, pattern] (Render.like e pattern escape negated) := by
  have hword : Composed [] (.word (if negated then " not like " else " like ")) := by
    cases negated <;> exact word rfl
  have hmatch := ((part e).before hword).append (part pattern)
  cases escape with
  | none => exact hmatch.before empty
  | some c => exact hmatch.before ((word rfl).append (unit rfl))

theorem junction (nature : JunctionNature) (ps : List Predicate) :
    Composed (ps.map (Render.predicate d)) (Render.junction nature (Render.predicates d ps)) := by
  have hseparator : Lexeme.isFixed nature.separator = true := by
    cases nature <;> rfl
  rw [Render.predicates_eq_map]
  match ps with
  | [] => cases nature <;> exact word rfl
  | [p] => exact part _
  | p :: q :: ps =>
      have hall := AllComposed.each (l := p :: q :: ps) fun p _ =>
        (part (Render.predicate d p)).wrap (Render.isCompound p)
      simpa [Render.junction, Function.comp_def] using hall.composed (joined hseparator _)

end Output.Composed

/-- The operator of distinctness that a predicate writes itself. -/
def Predicate.written (d : Dialect) : Predicate → List Output
  | .comparison lhs op rhs =>
    if Comparison.writesDistinctness d lhs rhs then op.written else []
  | _ => []

theorem Predicate.composed (d : Dialect) (p : Predicate) :
    Composed (p.written d ++ (p.parts d).map (Node.output d)) (Render.predicate d p) := by
  cases p with
  | comparison lhs op rhs => exact .comparison d lhs op rhs
  | junction nature members =>
      have hall := Composed.junction d nature members
      rw [Predicate.parts, List.map_map]
      exact hall
  | negated p => exact (Composed.word rfl).behind (Composed.part (Render.predicate d p)).parenthesized
  | nullCheck e negated => exact .nullCheck d e negated
  | inList e list negated => exact .inList d e list negated
  | inSubquery e q negated => exact .inSubquery d e q negated
  | «exists» q negated =>
      exact ((Composed.when negated (.word rfl)).append (.word rfl)).behind
        (Composed.part (Render.query d none q).output).parenthesized
  | between e low high negated => exact .between d e low high negated
  | like e pattern escape negated => exact .like escape negated
  | boolean e => exact .part _

end DialectSql
