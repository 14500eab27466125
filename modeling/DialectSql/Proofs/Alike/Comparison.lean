import DialectSql.Proofs.Alike.Pairing

namespace DialectSql

open Output

variable {L : Likeness} {d : Dialect}

mutual

/-- Operands of one shape whose outputs belong together. -/
inductive Operand.Paired (P : Pairing L d) : Operand → Operand → Prop
  | scalar {o o' : Output} (h : P.whole o o') : Operand.Paired P (.scalar o) (.scalar o')
  | tuple {es es' : List Operand} (h : Operand.AllPaired P es es') :
    Operand.Paired P (.tuple es) (.tuple es')
  | subquery {q q' : Subquery} (h : Subquery.Paired P q q') :
    Operand.Paired P (.subquery q) (.subquery q')
  | quantified {q q' : Subquery} (quantifier : Quantifier) (h : Subquery.Paired P q q') :
    Operand.Paired P (.quantified quantifier q) (.quantified quantifier q')

inductive Operand.AllPaired (P : Pairing L d) : List Operand → List Operand → Prop
  | nil : Operand.AllPaired P [] []
  | cons {e e' : Operand} {es es' : List Operand} (h : Operand.Paired P e e')
    (hs : Operand.AllPaired P es es') : Operand.AllPaired P (e :: es) (e' :: es')

inductive Subquery.Paired (P : Pairing L d) : Subquery → Subquery → Prop
  | setOperation {o o' : Output} (h : P.led o o') :
    Subquery.Paired P (.setOperation o) (.setOperation o')
  | spec {o o' source source' : Output} {restriction restriction' : Option Output}
    {selections selections' : List Operand} (movable : Bool) (h : P.led o o')
    (hs : P.led source source') (hr : Option.Rel P.whole restriction restriction')
    (hi : Operand.AllPaired P selections selections') :
    Subquery.Paired P (.spec o movable source restriction selections)
      (.spec o' movable source' restriction' selections')

end

variable {P : Pairing L d} {g : Gates}

theorem Operand.AllPaired.forall₂ {es es' : List Operand} :
    Operand.AllPaired P es es' → List.Forall₂ (Operand.Paired P) es es'
  | .nil => .nil
  | .cons h hs => .cons h hs.forall₂

theorem Operand.AllPaired.length_eq {es es' : List Operand} (h : Operand.AllPaired P es es') :
    es.length = es'.length := h.forall₂.length_eq

theorem Operand.AllPaired.isEmpty_eq {es es' : List Operand} (h : Operand.AllPaired P es es') :
    es.isEmpty = es'.isEmpty := by
  cases h <;> rfl

theorem Subquery.Paired.output {q q' : Subquery} (h : q.Paired P q') : P.led q.output q'.output := by
  cases h with
  | setOperation h => exact h
  | spec _ h => exact h

theorem Operand.Paired.elements {e e' : Operand} (h : e.Paired P e') :
    Operand.AllPaired P e.elements e'.elements := by
  cases h with
  | tuple h => exact h
  | scalar h => exact .cons (.scalar h) .nil
  | subquery h => exact .cons (.subquery h) .nil
  | quantified k h => exact .cons (.quantified k h) .nil

theorem Operand.Paired.isTuple {e e' : Operand} (h : e.Paired P e') : e.isTuple = e'.isTuple := by
  cases h <;> rfl

mutual

theorem Operand.Paired.output {e e' : Operand} (h : e.Paired P e') : P.whole e.output e'.output :=
  match h with
  | .scalar h => h
  | .tuple h => P.whole_of_led (P.parenthesized (P.list h.outputs))
  | .subquery h => P.whole_of_led (P.parenthesized (P.whole_of_led h.output))
  | .quantified k h => by
      have hk : IsSeparator k.sql := by cases k <;> decide
      have hq := P.led_append (P.word (w := " ") (by decide))
        (P.parenthesized (P.whole_of_led h.output))
      rw [Operand.output, Operand.output, append_assoc, append_assoc]
      exact P.whole_of_led (P.word_append hk (P.whole_of_led hq))

theorem Operand.AllPaired.outputs {es es' : List Operand} (h : Operand.AllPaired P es es') :
    P.AllWhole (operandOutputs es) (operandOutputs es') :=
  match h with
  | .nil => .nil
  | .cons h hs => .cons h.output hs.outputs

end

theorem ComparisonOperator.isSeparator (op : ComparisonOperator) : IsSeparator op.sql := by
  cases op <;> decide

namespace Comparison

section

variable {l l' r r' : Operand}

theorem paired_plain (op : ComparisonOperator) (hl : l.Paired P l') (hr : r.Paired P r') :
    P.whole (plain l op r) (plain l' op r') :=
  P.between op.isSeparator hl.output hr.output

theorem paired_nullTest (negated : Bool) (h : l.Paired P l') :
    P.whole (nullTest l negated) (nullTest l' negated) :=
  P.whole_append h.output (P.word (by cases negated <;> decide))

theorem paired_distinctByNullTests (op : ComparisonOperator) (hl : l.Paired P l')
    (hr : r.Paired P r') :
    P.led (distinctByNullTests l op r) (distinctByNullTests l' op r') := by
  rw [distinctByNullTests, distinctByNullTests]
  apply P.parenthesized
  split
  · have hne := paired_plain (P := P) .notEqual hl hr
    have hleft := P.between (w := " or ") (by decide) hne (paired_nullTest false hl)
    have hright := P.between (w := " and ") (by decide) hleft (paired_nullTest true hr)
    exact P.between (by decide) (P.between (by decide) hright (paired_nullTest true hl))
      (paired_nullTest false hr)
  · have heq := paired_plain (P := P) .equal hl hr
    exact P.between (by decide) (P.between (by decide) heq (paired_nullTest false hl))
      (paired_nullTest false hr)

end

theorem paired_plainEach {ls ls' rs rs' : List Operand} (op : ComparisonOperator) (hl : Operand.AllPaired P ls ls')
    (hr : Operand.AllPaired P rs rs') : P.AllWhole (plainEach op ls rs) (plainEach op ls' rs') := by
  match hl, hr with
  | .nil, _ => exact .nil
  | .cons _ _, .nil => exact .nil
  | .cons h hs, .cons k ks => exact .cons (paired_plain op h k) (paired_plainEach op hs ks)

theorem paired_lexicographic {ls ls' rs rs' : List Operand} (op : ComparisonOperator) (hl : Operand.AllPaired P ls ls')
    (hr : Operand.AllPaired P rs rs') :
    P.whole (lexicographic op ls rs) (lexicographic op ls' rs') := by
  match hl, hr with
  | .nil, _ => exact P.whole_of_led P.empty
  | .cons _ .nil, .nil | .cons _ (.cons _ _), .nil => exact P.whole_of_led P.empty
  | .cons h .nil, .cons k _ => exact paired_plain op h k
  | .cons h (.cons h' hs), .cons k ks =>
      have hrest := paired_lexicographic op (.cons h' hs) ks
      have hfirst := P.between (w := " or ") (by decide) (paired_plain op.sharper h k)
        (paired_plain .equal h k)
      exact P.whole_append (P.between (w := " and (") (by decide) hfirst hrest)
        (P.word (by decide))

theorem paired_leadingBound {ls ls' rs rs' : List Operand} (op : ComparisonOperator) (hl : Operand.AllPaired P ls ls')
    (hr : Operand.AllPaired P rs rs') :
    P.whole (leadingBound op ls rs) (leadingBound op ls' rs') := by
  match hl, hr with
  | .nil, _ => exact P.whole_of_led P.empty
  | .cons _ .nil, .nil | .cons _ (.cons _ _), .nil => exact P.whole_of_led P.empty
  | .cons h .nil, .cons k _ => exact paired_plain op h k
  | .cons h (.cons h' hs), .cons k ks =>
      have hrest := paired_leadingBound op (.cons h' hs) ks
      have hfirst := P.between (w := " and (") (by decide) (paired_plain op.broader h k)
        (paired_plain op.sharper h k)
      exact P.whole_append (P.between (w := " or ") (by decide) hfirst hrest) (P.word (by decide))

theorem paired_distinctByIntersect {ls ls' rs rs' : List Operand} (op : ComparisonOperator) (hl : Operand.AllPaired P ls ls')
    (hr : Operand.AllPaired P rs rs') :
    P.led (distinctByIntersect d ls op rs) (distinctByIntersect (d.withGates g) ls' op rs') := by
  have hdual : (d.withGates g).capabilities.dualTable = d.capabilities.dualTable := rfl
  rw [distinctByIntersect.eq_def, distinctByIntersect.eq_def, hl.length_eq, hr.length_eq, hdual]
  apply P.led_append (P.checkArity _ _)
  cases hname : d.capabilities.dualTable with
  | none => exact P.fail _
  | some dual =>
      have hn := P.name (P.dual dual hname)
      have hnot := P.when (op == .distinct) (P.word (w := "not ") (by decide))
      have hleft := P.led_between (w := "exists (select ") (by decide) hnot (P.list hl.outputs)
      have hfrom := P.led_between (w := " from ") (by decide) hleft (P.whole_of_led hn)
      have hright := P.led_between (w := " intersect select ") (by decide) hfrom
        (P.list hr.outputs)
      exact P.led_append (P.led_between (w := " from ") (by decide) hright (P.whole_of_led hn))
        (P.word (by decide))

mutual

theorem paired_render {l l' r r' : Operand} (op : ComparisonOperator) (hl : l.Paired P l') (hr : r.Paired P r') :
    P.whole (render d l op r) (render (d.withGates g) l' op r') := by
  have hrule : (d.withGates g).strategies = d.strategies := rfl
  rw [render.eq_def, render.eq_def, hrule]
  cases d.strategies.comparison with
  | standard => exact paired_standard op hl hr
  | intersect => exact paired_intersect op hl hr
  | lexicographic =>
      match hl, hr with
      | .tuple hl, .tuple hr => exact P.whole_of_led (paired_tuples op false hl hr)
      | .tuple hl, .scalar hr => exact paired_standard op (.tuple hl) (.scalar hr)
      | .tuple hl, .subquery hr => exact paired_standard op (.tuple hl) (.subquery hr)
      | .tuple hl, .quantified k hr => exact paired_standard op (.tuple hl) (.quantified k hr)
      | .scalar hl, hr => exact paired_standard op (.scalar hl) hr
      | .subquery hl, hr => exact paired_standard op (.subquery hl) hr
      | .quantified k hl, hr => exact paired_standard op (.quantified k hl) hr
termination_by (sizeOf l + sizeOf r, 4)

theorem paired_intersect {l l' r r' : Operand} (op : ComparisonOperator) (hl : l.Paired P l') (hr : r.Paired P r') :
    P.whole (intersect d l op r) (intersect (d.withGates g) l' op r') := by
  rw [intersect, intersect]
  split
  · exact P.whole_of_led (paired_distinctByIntersect op hl.elements hr.elements)
  · exact paired_standard op hl hr
termination_by (sizeOf l + sizeOf r, 3)

theorem paired_standard {l l' r r' : Operand} (op : ComparisonOperator) (hl : l.Paired P l') (hr : r.Paired P r') :
    P.whole (standard d l op r) (standard (d.withGates g) l' op r') := by
  have hplain := paired_plain op hl hr
  match hl, hr with
  | .tuple hl, .quantified k hr =>
      rw [standard, standard]
      exact P.whole_ite hplain (P.whole_of_led (paired_subquery op k false hl hr))
  | .tuple hl, .subquery hr =>
      rw [standard, standard]
      exact P.whole_ite hplain (P.whole_of_led (paired_subquery op .any false hl hr))
  | .tuple hl, .tuple hr =>
      have htuples := paired_tuples op true hl hr
      rw [standard, standard, hl.length_eq, hr.length_eq]
      exact P.arityChecked _ _ (P.whole_ite hplain (P.whole_of_led htuples))
  | .tuple hl, .scalar hr =>
      rw [standard.eq_def, standard.eq_def]
      dsimp only
      rw [hl.length_eq]
      exact P.whole_of_led (P.fail _)
  | .scalar hl, .tuple hr | .subquery hl, .tuple hr | .quantified _ hl, .tuple hr =>
      rw [standard.eq_def, standard.eq_def]
      dsimp only
      rw [hr.length_eq]
      exact P.whole_of_led (P.fail _)
  | .scalar hl, .subquery hr | .subquery hl, .subquery hr | .quantified _ hl, .subquery hr
  | .scalar hl, .quantified _ hr | .subquery hl, .quantified _ hr
  | .quantified _ hl, .quantified _ hr =>
      rw [standard.eq_def, standard.eq_def]
      exact hplain
  | .scalar hl, .scalar hr =>
      have htests := paired_distinctByNullTests op (.scalar hl) (.scalar hr)
      rw [standard.eq_def, standard.eq_def]
      exact P.whole_ite (P.whole_of_led htests) hplain
  | .subquery hl, .scalar hr =>
      have htests := paired_distinctByNullTests op (.subquery hl) (.scalar hr)
      rw [standard.eq_def, standard.eq_def]
      exact P.whole_ite (P.whole_of_led htests) hplain
  | .quantified k hl, .scalar hr =>
      have htests := paired_distinctByNullTests op (.quantified k hl) (.scalar hr)
      rw [standard.eq_def, standard.eq_def]
      exact P.whole_ite (P.whole_of_led htests) hplain
termination_by (sizeOf l + sizeOf r, 2)

theorem paired_tuples {ls ls' rs rs' : List Operand} (op : ComparisonOperator) (bounded : Bool) (hl : Operand.AllPaired P ls ls')
    (hr : Operand.AllPaired P rs rs') :
    P.led (tuples d ls rs op bounded) (tuples (d.withGates g) ls' rs' op bounded) := by
  have hplain := paired_plainEach op hl hr
  have heach := paired_renderEach op hl hr
  have hlexicographic := paired_lexicographic op hl hr
  have hbound := paired_leadingBound op hl hr
  rw [tuples.eq_def, tuples.eq_def, hl.length_eq, hr.length_eq, hl.isEmpty_eq]
  apply P.led_append (P.checkArity _ _)
  split
  · exact P.fail _
  · apply P.parenthesized
    cases op with
    | equal | notEqual => exact P.joined (by decide) hplain
    | distinct | notDistinct => exact P.joined (by decide) heach
    | lessThan | lessThanOrEqual | greaterThan | greaterThanOrEqual =>
        cases bounded
        · exact hlexicographic
        · exact hbound
termination_by (sizeOf ls + sizeOf rs, 1)

theorem paired_renderEach {ls ls' rs rs' : List Operand} (op : ComparisonOperator) (hl : Operand.AllPaired P ls ls')
    (hr : Operand.AllPaired P rs rs') :
    P.AllWhole (renderEach d op ls rs) (renderEach (d.withGates g) op ls' rs') := by
  match hl, hr with
  | .nil, _ =>
      rw [renderEach.eq_def, renderEach.eq_def]
      exact .nil
  | .cons _ _, .nil =>
      rw [renderEach.eq_def, renderEach.eq_def]
      exact .nil
  | .cons h hs, .cons k ks =>
      rw [renderEach, renderEach]
      exact .cons (paired_render op h k) (paired_renderEach op hs ks)
termination_by (sizeOf ls + sizeOf rs, 0)

theorem paired_selectTuple {ls ls' rs rs' : List Operand} (op : ComparisonOperator) (hl : Operand.AllPaired P ls ls')
    (hr : Operand.AllPaired P rs rs') :
    P.led (selectTuple d ls rs op) (selectTuple (d.withGates g) ls' rs' op) := by
  have hrule : (d.withGates g).strategies = d.strategies := rfl
  rw [selectTuple, selectTuple, hrule]
  cases d.strategies.selectTuple with
  | standard => exact paired_selectTupleStandard op hl hr
  | emulate => exact paired_tuples op true hl hr
  | lexicographic => exact paired_tuples op false hl hr
termination_by (sizeOf ls + sizeOf rs, 3)

theorem paired_selectTupleStandard {ls ls' rs rs' : List Operand} (op : ComparisonOperator) (hl : Operand.AllPaired P ls ls')
    (hr : Operand.AllPaired P rs rs') :
    P.led (selectTupleStandard d ls rs op) (selectTupleStandard (d.withGates g) ls' rs' op) := by
  have htuples := paired_tuples op true hl hr
  rw [selectTupleStandard, selectTupleStandard, hl.length_eq, hr.length_eq]
  have hleft := P.led_append (P.checkArity ls'.length rs'.length)
    (P.parenthesized (P.list hl.outputs))
  have hnative := P.led_append (P.led_append hleft (P.word op.isSeparator))
    (P.parenthesized (P.list hr.outputs))
  exact P.led_ite hnative htuples
termination_by (sizeOf ls + sizeOf rs, 2)

theorem paired_subquery {ls ls' : List Operand} {q q' : Subquery} (op : ComparisonOperator) (quantifier : Quantifier)
    (negated : Bool) (hl : Operand.AllPaired P ls ls') (hq : q.Paired P q') :
    P.led (subquery d ls q op quantifier negated)
      (subquery (d.withGates g) ls' q' op quantifier negated) := by
  cases hq with
  | setOperation h =>
      rw [subquery, subquery]
      exact P.fail _
  | @spec _ _ _ _ restriction restriction' items items' movable h hs hrestriction hi =>
      have hmatch := paired_selectTuple op.invert hi hl
      rw [subquery.eq_def, subquery.eq_def]
      dsimp only
      split
      · exact P.fail _
      · rw [hl.length_eq, hi.length_eq]
        have hnot := P.led_append (P.checkArity ls'.length items'.length)
          (P.when negated (P.word (w := "not ") (by decide)))
        have hall := P.led_append hnot
          (P.when (quantifier == .all) (P.word (w := "not ") (by decide)))
        have hsource := P.led_append
          (P.led_append hall (P.word (w := "exists (select 1") (by decide))) hs
        have hwhere := P.led_append hsource (P.word (w := " where ") (by decide))
        have hnone := P.when (quantifier == .all) (P.word (w := "not ") (by decide))
        refine P.led_append (P.led_append (P.led_append (P.led_append hwhere ?_) hnone) hmatch)
          (P.word (by decide))
        cases hrestriction with
        | none => exact P.empty
        | some hr => exact P.led_append (P.parenthesized hr) (P.word (by decide))
termination_by (sizeOf ls + sizeOf q, 0)

end

end Comparison

end DialectSql
