import DialectSql.Proofs.Existence.Distinctness
import DialectSql.Proofs.Existence.Reading

namespace DialectSql

open Output.Layers (reading)

variable {α : Type*} [LinearOrder α]

theorem valueOrder_swap (x y : Option α) : valueOrder x y = (valueOrder y x).map Ordering.swap := by
  cases x <;> cases y <;> first | rfl | exact congrArg some (cmp_swap _ _).symm

namespace ComparisonOperator

theorem verdict_swap {op : ComparisonOperator} (hop : op.isDistinctness = false)
    (o : Option Ordering) : op.invert.verdict (o.map Ordering.swap) = op.verdict o := by
  cases op <;> first | (cases hop; done) | skip
  all_goals rcases o with _ | _ | _ | _ <;> rfl

theorem truth_equal_comm (x y : Option α) : equal.truth x y = equal.truth y x := by
  change equal.verdict (valueOrder x y) = equal.verdict (valueOrder y x)
  rw [valueOrder_swap x y]
  exact @verdict_swap equal rfl _

theorem truth_notDistinct_comm (x y : Option α) : notDistinct.truth x y = notDistinct.truth y x := by
  simp only [truth, eq_comm]

end ComparisonOperator

namespace Row

theorem order_swap (xs ys : List (Option α)) : order xs ys = (order ys xs).map Ordering.swap := by
  induction xs generalizing ys with
  | nil => cases ys <;> rfl
  | cons x xs ih =>
      cases ys with
      | nil => rfl
      | cons y ys =>
          rw [order, order, valueOrder_swap x y, ih ys]
          rcases valueOrder y x with _ | _ | _ | _ <;> rfl

/-- The sides of a comparison change places with the operator inverted. -/
theorem truth_invert (op : ComparisonOperator) (xs ys : List (Option α)) :
    truth op.invert xs ys = truth op ys xs := by
  have hequal : List.zipWith (ComparisonOperator.truth .equal) xs ys =
      List.zipWith (ComparisonOperator.truth .equal) ys xs :=
    List.zipWith_comm_of_comm ComparisonOperator.truth_equal_comm
  have hnotDistinct : List.zipWith (ComparisonOperator.truth .notDistinct) xs ys =
      List.zipWith (ComparisonOperator.truth .notDistinct) ys xs :=
    List.zipWith_comm_of_comm ComparisonOperator.truth_notDistinct_comm
  cases op with
  | equal | notEqual => simp only [truth, ComparisonOperator.invert, hequal]
  | distinct | notDistinct => simp only [truth, ComparisonOperator.invert, hnotDistinct]
  | lessThan | lessThanOrEqual | greaterThan | greaterThanOrEqual =>
      simp only [truth, order_swap xs ys]
      exact ComparisonOperator.verdict_swap rfl _

end Row

namespace Comparison

/-- Two rows are compared inside a query as rows, and not by their values. -/
def writesRows (d : Dialect) : Bool :=
  d.strategies.selectTuple == .standard && d.capabilities.rowValueConstructor

theorem selectTuple_of_writesRows {d : Dialect} (h : writesRows d = true)
    (ss ls : List Operand) (op : ComparisonOperator) :
    selectTuple d ss ls op = checkArity ss.length ls.length ++
      (Output.list (operandOutputs ss)).parenthesized ++ .word op.sql ++
      (Output.list (operandOutputs ls)).parenthesized := by
  simp only [writesRows, Bool.and_eq_true, beq_iff_eq] at h
  rw [selectTuple, h.1, selectTupleStandard, if_pos h.2]

theorem selectTuple_of_values {d : Dialect} (h : writesRows d = false) (ss ls : List Operand)
    (op : ComparisonOperator) : ∃ bounded, selectTuple d ss ls op = tuples d ss ls op bounded := by
  rw [selectTuple]
  split
  · rename_i hstandard
    have hconstructor : d.capabilities.rowValueConstructor = false := by
      simpa [writesRows, hstandard] using h
    rw [selectTupleStandard, hconstructor]
    exact ⟨true, rfl⟩
  · exact ⟨true, rfl⟩
  · exact ⟨false, rfl⟩

variable (V : Valuation α) (d : Dialect)

theorem elementwise_within {ls rs : List Operand} (op : ComparisonOperator) (bounded : Bool)
    (hl : operandsHold reading ls) (hr : operandsHold reading rs) :
    (elementwise d ls rs op bounded).Within Lexeme.ofCondition := by
  have hplain (op : ComparisonOperator) :
      ∀ o ∈ plainEach op ls rs, o.Within Lexeme.ofCondition := fun o ho =>
    reading.condition_of_test (reading.plainEach op hl hr o ho)
  have heach (op : ComparisonOperator) :
      ∀ o ∈ renderEach d op ls rs, o.Within Lexeme.ofCondition := fun o ho =>
    reading.condition_of_test (reading.eachComparison d op ls rs hl hr o ho)
  rw [elementwise.eq_def]
  split
  · exact reading.ofCondition.joined rfl (hplain _)
  · exact reading.ofCondition.joined rfl (hplain _)
  · exact reading.ofCondition.joined rfl (heach _)
  · exact reading.ofCondition.joined rfl (heach _)
  · split
    · exact reading.leadingBound _ hl hr
    · exact reading.lexicographic _ hl hr

theorem factorTruth_tuples {ls rs : List Operand} (op : ComparisonOperator) (bounded : Bool)
    (hl : operandsHold reading ls) (hr : operandsHold reading rs)
    (hok : (tuples d ls rs op bounded).failure = none) :
    V.factorTruth (tuples d ls rs op bounded).parts =
      Condition.partsTruth V (tuples d ls rs op bounded).parts := by
  obtain ⟨hlen, hne⟩ := arity_of_tuples hok
  have hwithin := elementwise_within d op bounded hl hr
  rw [tuples_eq d op bounded hlen hne] at hok ⊢
  have hbody : (elementwise d ls rs op bounded).failure = none := by simpa using hok
  rw [V.factorTruth_group hwithin hbody, Output.partsTruth_parenthesized V hwithin hbody]

/-- A comparison of two lists in brackets is one of the two rows. -/
theorem factorTruth_rows {os qs : List Output} (op : ComparisonOperator) (hos : os ≠ [])
    (hqs : qs ≠ []) (ho : ∀ o ∈ os, o.Within Lexeme.ofExpression)
    (hq : ∀ q ∈ qs, q.Within Lexeme.ofExpression)
    (hok : ((Output.list os).parenthesized ++ .word op.sql ++
      (Output.list qs).parenthesized).failure = none) :
    V.factorTruth ((Output.list os).parenthesized ++ .word op.sql ++
      (Output.list qs).parenthesized).parts = Row.truth op (os.map V.of) (qs.map V.of) := by
  have hflat : (Lexeme.ofWord op.sql).all Lexeme.ofQuery = true := by cases op <;> decide
  have hop : Condition.rowOperator? ((Lexeme.ofWord op.sql).map .leaf) = some op := by
    cases op <;> decide
  obtain ⟨hleft, hrok⟩ := Output.failure_append_eq_none.1 hok
  have hlok := (Output.failure_append_eq_none.1 hleft).1
  rw [Output.failure_parenthesized] at hlok hrok
  have hlist := reading.expressionList ho
  have hlist' := reading.expressionList hq
  have hopq := reading.ofQuery.word hflat
  have hgroup := reading.ofQuery.parenthesized hlist
  have hgroup' := reading.ofQuery.parenthesized hlist'
  rw [Output.parts_append (Output.Within.append hgroup hopq) hgroup' hok,
    Output.parts_append hgroup hopq hleft, Output.parts_word hflat,
    Output.parts_parenthesized hlist hlok, Output.parts_parenthesized hlist' hrok]
  have hrow := Output.row?_list hos ho hlok
  have hrow' := Output.row?_list hqs hq hrok
  have hnot : (Part.enclose .paren (Output.list os).parts).isKey "not" = false := rfl
  have htest : Condition.rowTest? (Part.enclose .paren (Output.list os).parts ::
      ((Lexeme.ofWord op.sql).map .leaf ++ [Part.enclose .paren (Output.list qs).parts])) =
      some (os.map fun o => Lexeme.ofPieces o.pieces, op, qs.map fun o => Lexeme.ofPieces o.pieces) := by
    simp [Condition.rowTest?, hrow, hrow', hop]
  simp only [List.cons_append, List.nil_append, Valuation.factorTruth, hnot, htest,
    Bool.false_eq_true, if_false, List.map_map]
  rfl

theorem operandOutputs_ne_nil {es : List Operand} (h : es ≠ []) : operandOutputs es ≠ [] := by
  cases es with
  | nil => exact absurd rfl h
  | cons e es => simp [operandOutputs]

section

variable {R : Truth → Truth → Prop} (hR : Truth.Similarity R) {ss ls : List Operand}

include hR

/-- A select list is compared with a tuple as the row of its values is with the row of the tuple. -/
theorem similar_selectTuple (op : ComparisonOperator)
    (hrule : op.isDistinctness = true → d.strategies.comparison ≠ .intersect)
    (hnull : op.isDistinctness = true → writesRows d = false →
      d.capabilities.distinctFrom = .emulated →
      ∀ x y : Option α, R (op.nullTestsTruth x y) (op.truth x y))
    (hs : operandsHold reading ss) (hl : operandsHold reading ls)
    (hsv : op.isDistinctness = true → ∀ s ∈ ss, s.isTuple = false)
    (hlv : op.isDistinctness = true → ∀ l ∈ ls, l.isTuple = false) (hne : ls ≠ [])
    (hok : (selectTuple d ss ls op).failure = none) :
    R (V.factorTruth (selectTuple d ss ls op).parts)
      (Row.truth op ((operandOutputs ss).map V.of) ((operandOutputs ls).map V.of)) := by
  cases hrows : writesRows d with
  | true =>
      rw [selectTuple_of_writesRows hrows] at hok ⊢
      have hlen : ss.length = ls.length := by
        refine (Output.failure_checkArity _ _).1 ?_
        simp only [Output.failure_append_eq_none] at hok
        exact hok.1.1.1
      have hss : ss ≠ [] := by
        rintro rfl
        exact hne (List.length_eq_zero_iff.1 hlen.symm)
      rw [hlen, Output.checkArity_self, Output.empty_append] at hok ⊢
      rw [factorTruth_rows V op (operandOutputs_ne_nil hss) (operandOutputs_ne_nil hne)
        (reading.operands hs) (reading.operands hl) hok]
      exact hR.refl _
  | false =>
      obtain ⟨bounded, hvalues⟩ := selectTuple_of_values hrows ss ls op
      rw [hvalues] at hok ⊢
      rw [factorTruth_tuples V d op bounded hs hl hok]
      cases hop : op.isDistinctness with
      | false =>
          rw [partsTruth_tuples V d hop bounded hs hl hok]
          exact hR.refl _
      | true =>
          exact similar_distinctTuples V d hR (hnull hop hrows) (hrule hop) hop bounded hs hl
            (hsv hop) (hlv hop) hok

end

/-- The condition of the query that stands for a comparison with its rows. -/
def rowCondition (restriction : Option Output) (ss ls : List Operand) (op : ComparisonOperator)
    (all : Bool) : Output :=
  (match restriction with
    | some r => r.parenthesized ++ .word " and "
    | none => .empty) ++
    (.when all (.word "not ") ++ selectTuple d ss ls op.invert)

theorem subquery_movable (out source : Output) (restriction : Option Output) (ls ss : List Operand)
    (op : ComparisonOperator) (quantifier : Quantifier) (negated : Bool) :
    subquery d ls (.spec out true source restriction ss) op quantifier negated =
      checkArity ls.length ss.length ++ (.when negated (.word "not ") ++
        (.when (quantifier == .all) (.word "not ") ++
          .existing source (rowCondition d restriction ss ls op (quantifier == .all)))) := by
  rw [subquery.eq_def]
  cases restriction <;>
    simp only [Bool.not_true, Bool.false_eq_true, if_false, Output.existing, rowCondition,
      Output.append_assoc]

/-- A comparison with the rows of a query is an existence, negated or not. -/
theorem subquery_eq {ls ss : List Operand} {out source : Output} {movable : Bool}
    {restriction : Option Output} {op : ComparisonOperator} {quantifier : Quantifier}
    {negated : Bool}
    (hok : (subquery d ls (.spec out movable source restriction ss) op quantifier negated).failure =
      none) :
    subquery d ls (.spec out movable source restriction ss) op quantifier negated =
      .when negated (.word "not ") ++ (.when (quantifier == .all) (.word "not ") ++
        .existing source (rowCondition d restriction ss ls op (quantifier == .all))) := by
  cases movable with
  | false =>
      rw [subquery.eq_def] at hok
      cases hok
  | true =>
      rw [subquery_movable] at hok ⊢
      have harity := (Output.failure_append_eq_none.1 hok).1
      rw [(Output.failure_checkArity _ _).1 harity, Output.checkArity_self, Output.empty_append]

variable {d} {restriction : Option Output} {ss ls : List Operand} {op : ComparisonOperator}

theorem rowCondition_within (all : Bool) (hr : ∀ r, restriction = some r → r.Within Lexeme.ofCondition)
    (hs : operandsHold reading ss) (hl : operandsHold reading ls) :
    (rowCondition d restriction ss ls op all).Within Lexeme.ofCondition := by
  have hmatch : (selectTuple d ss ls op.invert).Within Lexeme.ofTest :=
    reading.selectTuple d ss ls op.invert hs hl
  have hnot := reading.ofTest.when all (reading.ofTest.fixed "not " rfl)
  refine reading.ofCondition.append ?_ (reading.condition_of_test (hnot.append hmatch))
  cases restriction with
  | none => exact reading.ofCondition.empty
  | some r =>
      exact reading.ofCondition.append
        (reading.ofCondition.parenthesized (reading.query_of_condition (hr r rfl)))
        (reading.ofCondition.fixed _ rfl)

/-- The restriction of the query holds and the row matches. -/
theorem conditionTruth_rowCondition (all : Bool)
    (hr : ∀ r, restriction = some r → r.Within Lexeme.ofCondition)
    (hs : operandsHold reading ss) (hl : operandsHold reading ls)
    (hok : (rowCondition d restriction ss ls op all).failure = none) :
    V.conditionTruth (rowCondition d restriction ss ls op all).parts =
      (restriction.elim .true fun r => Condition.partsTruth V r.parts).and
        (if all then (V.factorTruth (selectTuple d ss ls op.invert).parts).not
          else V.factorTruth (selectTuple d ss ls op.invert).parts) := by
  have hmatch : (selectTuple d ss ls op.invert).Within Lexeme.ofTest :=
    reading.selectTuple d ss ls op.invert hs hl
  have hnot := reading.ofTest.when all (reading.ofTest.fixed "not " rfl)
  have hlast : (.when all (.word "not ") ++ selectTuple d ss ls op.invert : Output).Within
      Lexeme.ofTest := Output.Within.append hnot hmatch
  obtain ⟨hfirst, hlastok⟩ := Output.failure_append_eq_none.1 hok
  have hmatchok := (Output.failure_append_eq_none.1 hlastok).2
  have hvalue : V.factorTruth
      (.when all (.word "not ") ++ selectTuple d ss ls op.invert : Output).parts =
      if all then (V.factorTruth (selectTuple d ss ls op.invert).parts).not
        else V.factorTruth (selectTuple d ss ls op.invert).parts := by
    cases all with
    | false => simp [Output.when]
    | true =>
        rw [Output.when, if_pos rfl, Output.parts_not hmatch hmatchok, V.factorTruth_not,
          if_pos rfl]
  cases restriction with
  | none =>
      have hshape : rowCondition d none ss ls op all =
          .when all (.word "not ") ++ selectTuple d ss ls op.invert := Output.empty_append _
      rw [hshape, V.conditionTruth_factor (hlast.isFactor hlastok), hvalue, Option.elim_none,
        Truth.true_and]
  | some r =>
      have hrok : r.failure = none := by
        rw [← Output.failure_parenthesized]
        exact (Output.failure_append_eq_none.1 hfirst).1
      have hgroup := reading.ofQuery.parenthesized (reading.query_of_condition (hr r rfl))
      have hshape : (rowCondition d (some r) ss ls op all).parts = r.parenthesized.parts ++
          .word "and" :: (.when all (.word "not ") ++ selectTuple d ss ls op.invert : Output).parts :=
        Output.parts_separated (by decide) hgroup (reading.query_of_test hlast) hok
      rw [hshape, V.conditionTruth_and (Output.isFactor_parenthesized (hr r rfl) hrok)
        (hlast.isFactor hlastok), V.factorTruth_group (hr r rfl) hrok, hvalue, Option.elim_some]

theorem failure_rowCondition {all : Bool}
    (hok : (rowCondition d restriction ss ls op all).failure = none) :
    (∀ r, restriction = some r → r.failure = none) ∧
      (selectTuple d ss ls op.invert).failure = none := by
  obtain ⟨hfirst, hlast⟩ := Output.failure_append_eq_none.1 hok
  refine ⟨fun r hr => ?_, (Output.failure_append_eq_none.1 hlast).2⟩
  subst hr
  rw [← Output.failure_parenthesized]
  exact (Output.failure_append_eq_none.1 hfirst).1

theorem failure_subquery {out source : Output} {movable : Bool} {quantifier : Quantifier}
    {negated : Bool}
    (hok : (subquery d ls (.spec out movable source restriction ss) op quantifier negated).failure =
      none) :
    (∀ r, restriction = some r → r.failure = none) ∧
      (selectTuple d ss ls op.invert).failure = none := by
  rw [subquery_eq d hok] at hok
  have hexisting := (Output.failure_append_eq_none.1 (Output.failure_append_eq_none.1 hok).2).2
  exact failure_rowCondition ((Output.failure_existing _ _).1 hexisting).2

theorem failure_selectTuple (hop : op.isDistinctness = false) (hne : ss ≠ [])
    (hlen : ss.length = ls.length) (hs : ∀ o ∈ operandOutputs ss, o.failure = none)
    (hl : ∀ o ∈ operandOutputs ls, o.failure = none) : (selectTuple d ss ls op).failure = none := by
  cases hrows : writesRows d with
  | true =>
      rw [selectTuple_of_writesRows hrows, hlen, Output.checkArity_self]
      simp [Output.list, (Output.failure_joined_eq_none _ _).2 hs,
        (Output.failure_joined_eq_none _ _).2 hl]
  | false =>
      obtain ⟨bounded, hvalues⟩ := selectTuple_of_values hrows ss ls op
      rw [hvalues]
      exact failure_tuples d hop bounded hne hlen hs hl

theorem failure_not (negated : Bool) : (Output.when negated (.word "not ")).failure = none := by
  cases negated <;> rfl

/-- A comparison with the rows of a query that neither merges nor limits them is rendered. -/
theorem subquery_complete {out source : Output} (quantifier : Quantifier) (negated : Bool)
    (hlen : ls.length = ss.length) (hsource : source.failure = none)
    (hr : ∀ r, restriction = some r → r.failure = none)
    (hmatch : (selectTuple d ss ls op.invert).failure = none) :
    (subquery d ls (.spec out true source restriction ss) op quantifier negated).failure = none := by
  have hcondition : (rowCondition d restriction ss ls op (quantifier == .all)).failure = none := by
    cases restriction with
    | none => simp [rowCondition, failure_not, hmatch]
    | some r => simp [rowCondition, failure_not, hmatch, hr r rfl]
  have hexisting := (Output.failure_existing source _).2 ⟨hsource, hcondition⟩
  rw [subquery_movable, hlen, Output.checkArity_self]
  simp [failure_not, hexisting]

/-- Whether a row of the tables satisfies the restriction and matches, or for `all` fails to. -/
def admits (d : Dialect) (restriction : Option Output) (ss ls : List Operand)
    (op : ComparisonOperator) (all : Bool) (V : Valuation α) : Bool :=
  (restriction.elim .true fun r => Condition.partsTruth V r.parts).and
    (if all then (V.factorTruth (selectTuple d ss ls op.invert).parts).not
      else V.factorTruth (selectTuple d ss ls op.invert).parts) == .true

theorem existence?_subquery (T : Tables α) {out source : Output} {movable : Bool}
    {quantifier : Quantifier} {negated : Bool} (hsource : source.Within Lexeme.ofSource)
    (hr : ∀ r, restriction = some r → r.Within Lexeme.ofCondition)
    (hs : operandsHold reading ss) (hl : operandsHold reading ls)
    (hok : (subquery d ls (.spec out movable source restriction ss) op quantifier negated).failure =
      none) :
    (subquery d ls (.spec out movable source restriction ss) op quantifier negated).existence? T =
      some (negated ^^ ((quantifier == .all) ^^ (T (Lexeme.ofPieces source.pieces)).any
        (admits d restriction ss ls op (quantifier == .all)))) := by
  have hcondition : (rowCondition d restriction ss ls op (quantifier == .all)).Within
      Lexeme.ofCondition := rowCondition_within _ hr hs hl
  have hexisting := Output.existing_within hsource hcondition
  have hall : (.when (quantifier == .all) (.word "not ") ++ .existing source
      (rowCondition d restriction ss ls op (quantifier == .all)) : Output).Within Lexeme.ofTest :=
    Output.Within.append (reading.ofTest.when _ (reading.ofTest.fixed "not " rfl)) hexisting
  have hshape := subquery_eq d hok
  rw [hshape] at hok ⊢
  have hallok := (Output.failure_append_eq_none.1 hok).2
  have hexistingok := (Output.failure_append_eq_none.1 hallok).2
  have hconditionok := ((Output.failure_existing _ _).1 hexistingok).2
  rw [Output.existence?_when T negated hall hallok,
    Output.existence?_when T (quantifier == .all) hexisting hexistingok,
    Output.existence?_existing T hsource hcondition hexistingok]
  simp only [Option.map_some]
  have hrow (V : Valuation α) : (V.conditionTruth
      (rowCondition d restriction ss ls op (quantifier == .all)).parts == .true) =
      admits d restriction ss ls op (quantifier == .all) V := by
    rw [conditionTruth_rowCondition V _ hr hs hl hconditionok, admits]
  simp only [hrow]

end Comparison

end DialectSql
