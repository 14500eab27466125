import DialectSql.Proofs.Layer.Basic

namespace DialectSql

/-- Of two rows that do not both have a first element one is empty. -/
theorem Comparison.eq_nil_of_unpaired {α β : Type*} {ls : List α} {rs : List β}
    (h : ∀ l ls' r rs', ls = l :: ls' → rs = r :: rs' → False) : ls = [] ∨ rs = [] := by
  cases ls with
  | nil => exact .inl rfl
  | cons l ls =>
      cases rs with
      | nil => exact .inr rfl
      | cons r rs => exact (h l ls r rs rfl rfl).elim

namespace Output.Layers

variable (L : Layers)

theorem operator (op : ComparisonOperator) : L.test (.word op.sql) := by
  cases op <;> exact L.ofTest.fixed _ rfl

theorem plain {l r : Operand} (hl : l.Holds L) (hr : r.Holds L) (op : ComparisonOperator) :
    L.test (Comparison.plain l op r) := by
  have hleft := L.test_of_expression (L.operand hl)
  have hright := L.test_of_expression (L.operand hr)
  exact L.ofTest.append (L.ofTest.append hleft (L.operator op)) hright

theorem plainCondition {l r : Operand} (hl : l.Holds L) (hr : r.Holds L)
    (op : ComparisonOperator) : L.condition (Comparison.plain l op r) :=
  L.condition_of_test (L.plain hl hr op)

theorem nullTest {e : Operand} (he : e.Holds L) (negated : Bool) :
    L.test (Comparison.nullTest e negated) := by
  have hoperand := L.test_of_expression (L.operand he)
  cases negated <;> exact L.ofTest.append hoperand (L.ofTest.fixed _ rfl)

theorem plainEach (op : ComparisonOperator) {ls rs : List Operand} (hl : operandsHold L ls)
    (hr : operandsHold L rs) : ∀ o ∈ Comparison.plainEach op ls rs, L.test o := by
  induction ls generalizing rs with
  | nil => simp [Comparison.plainEach]
  | cons l ls ih =>
      cases rs with
      | nil => simp [Comparison.plainEach]
      | cons r rs =>
          intro o ho
          rcases List.mem_cons.1 ho with rfl | ho
          · exact L.plain hl.1 hr.1 op
          · exact ih hl.2 hr.2 o ho

theorem lexicographic (op : ComparisonOperator) {ls rs : List Operand} (hl : operandsHold L ls)
    (hr : operandsHold L rs) : L.condition (Comparison.lexicographic op ls rs) := by
  fun_induction Comparison.lexicographic op ls rs with
  | case1 l r rs => exact L.plainCondition hl.1 hr.1 op
  | case2 l ls r rs hne ih =>
      have hor := L.ofCondition.fixed " or " rfl
      have hfirst := L.ofCondition.append (L.plainCondition hl.1 hr.1 op.sharper) hor
      have hbehind := L.ofCondition.bracketed .paren " and (" ")" rfl rfl (L.query_of_condition (ih hl.2 hr.2))
      have hall := L.ofCondition.append (L.ofCondition.append hfirst (L.plainCondition hl.1 hr.1 .equal)) hbehind
      simpa only [Output.append_assoc] using hall
  | case3 => exact L.ofCondition.empty

theorem leadingBound (op : ComparisonOperator) {ls rs : List Operand} (hl : operandsHold L ls)
    (hr : operandsHold L rs) : L.condition (Comparison.leadingBound op ls rs) := by
  fun_induction Comparison.leadingBound op ls rs with
  | case1 l r rs => exact L.plainCondition hl.1 hr.1 op
  | case2 l ls r rs hne ih =>
      have hor := L.ofCondition.fixed " or " rfl
      have hinner := L.ofCondition.append
        (L.ofCondition.append (L.plainCondition hl.1 hr.1 op.sharper) hor) (ih hl.2 hr.2)
      have hbehind := L.ofCondition.bracketed .paren " and (" ")" rfl rfl (L.query_of_condition hinner)
      have hall := L.ofCondition.append (L.plainCondition hl.1 hr.1 op.broader) hbehind
      simpa only [Output.append_assoc] using hall
  | case3 => exact L.ofCondition.empty

theorem distinctByNullTests {l r : Operand} (op : ComparisonOperator) (hl : l.Holds L)
    (hr : r.Holds L) : L.test (Comparison.distinctByNullTests l op r) := by
  have hor := L.ofCondition.fixed " or " rfl
  have hand := L.ofCondition.fixed " and " rfl
  have hboth (a b : Bool) : L.condition
      (.word " or " ++ Comparison.nullTest l a ++ .word " and " ++ Comparison.nullTest r b) :=
    L.ofCondition.append (L.ofCondition.append
      (L.ofCondition.append hor (L.condition_of_test (L.nullTest hl a))) hand)
      (L.condition_of_test (L.nullTest hr b))
  apply L.ofTest.parenthesized
  apply L.query_of_condition
  split
  · have hall := L.ofCondition.append (L.ofCondition.append (L.plainCondition hl hr .notEqual)
      (hboth false true)) (hboth true false)
    simpa only [Output.append_assoc] using hall
  · have hall := L.ofCondition.append (L.plainCondition hl hr .equal) (hboth false false)
    simpa only [Output.append_assoc] using hall

theorem distinctByIntersect (d : Dialect) {ls rs : List Operand} (op : ComparisonOperator)
    (hl : operandsHold L ls) (hr : operandsHold L rs) :
    L.test (Comparison.distinctByIntersect d ls op rs) := by
  apply L.ofTest.append (L.ofTest.checkArity _ _)
  split
  · exact L.ofTest.fail _
  · rename_i dual _
    have hfrom := L.ofQuery.append (L.ofQuery.fixed " from " rfl) (L.ofQuery.name dual)
    have hselect := L.ofQuery.fixed " intersect select " rfl
    have hrows := L.ofQuery.append (L.ofQuery.append (L.ofQuery.append
      (L.ofQuery.append (L.operandList hl) hfrom) hselect) (L.operandList hr)) hfrom
    have hgroup := L.ofTest.bracketed .paren "exists (select " ")" rfl rfl hrows
    have hnot := L.ofTest.when (op == .distinct) (L.ofTest.fixed "not " rfl)
    simpa only [Output.append_assoc] using L.ofTest.append hnot hgroup

theorem movedRestriction {moved : Output} (restriction : Option Output)
    (hmoved : moved = match restriction with
      | some r => r.parenthesized ++ .word " and "
      | none => .empty)
    (h : ∀ r, restriction = some r → L.condition r) : L.query moved := by
  cases restriction with
  | none => rw [hmoved]; exact L.ofQuery.empty
  | some r =>
      rw [hmoved]
      exact L.ofQuery.append (L.ofQuery.parenthesized (L.query_of_condition (h r rfl)))
        (L.ofQuery.fixed _ rfl)

mutual

theorem comparison (d : Dialect) (l : Operand) (op : ComparisonOperator) (r : Operand)
    (hl : l.Holds L) (hr : r.Holds L) : L.test (Comparison.render d l op r) := by
  rw [Comparison.render.eq_def]
  split
  · exact standardComparison d l op r hl hr
  · exact intersectComparison d l op r hl hr
  · split
    · rename_i ls rs
      exact tuples d ls rs op false (by simpa [Operand.Holds] using hl)
        (by simpa [Operand.Holds] using hr)
    · exact standardComparison d _ op _ hl hr
termination_by (sizeOf l + sizeOf r, 4)

theorem intersectComparison (d : Dialect) (l : Operand) (op : ComparisonOperator) (r : Operand)
    (hl : l.Holds L) (hr : r.Holds L) : L.test (Comparison.intersect d l op r) := by
  rw [Comparison.intersect.eq_def]
  split
  · exact L.distinctByIntersect d op hl.elements hr.elements
  · exact standardComparison d l op r hl hr
termination_by (sizeOf l + sizeOf r, 3)

theorem standardComparison (d : Dialect) (l : Operand) (op : ComparisonOperator) (r : Operand)
    (hl : l.Holds L) (hr : r.Holds L) : L.test (Comparison.standard d l op r) := by
  rw [Comparison.standard.eq_def]
  split
  · rename_i ls quantifier q
    split
    · exact L.plain hl hr op
    · exact subqueryComparison d ls q op quantifier false (by simpa [Operand.Holds] using hl)
        (by simpa [Operand.Holds] using hr)
  · rename_i ls q
    split
    · exact L.plain hl hr op
    · exact subqueryComparison d ls q op .any false (by simpa [Operand.Holds] using hl)
        (by simpa [Operand.Holds] using hr)
  · exact L.plain hl hr op
  · exact L.plain hl hr op
  · rename_i ls rs
    apply L.ofTest.append (L.ofTest.checkArity _ _)
    split
    · exact L.plain hl hr op
    · exact tuples d ls rs op true (by simpa [Operand.Holds] using hl)
        (by simpa [Operand.Holds] using hr)
  · exact L.ofTest.fail _
  · exact L.ofTest.fail _
  · split
    · exact L.distinctByNullTests op hl hr
    · exact L.plain hl hr op
termination_by (sizeOf l + sizeOf r, 2)

theorem tuples (d : Dialect) (ls rs : List Operand) (op : ComparisonOperator) (bounded : Bool)
    (hl : operandsHold L ls) (hr : operandsHold L rs) :
    L.test (Comparison.tuples d ls rs op bounded) := by
  rw [Comparison.tuples.eq_def]
  apply L.ofTest.append (L.ofTest.checkArity _ _)
  split
  · exact L.ofTest.fail _
  · apply L.ofTest.parenthesized
    apply L.query_of_condition
    split
    · exact L.ofCondition.joined rfl
        fun o ho => L.condition_of_test (L.plainEach _ hl hr o ho)
    · exact L.ofCondition.joined rfl
        fun o ho => L.condition_of_test (L.plainEach _ hl hr o ho)
    · exact L.ofCondition.joined rfl
        fun o ho => L.condition_of_test (eachComparison d _ ls rs hl hr o ho)
    · exact L.ofCondition.joined rfl
        fun o ho => L.condition_of_test (eachComparison d _ ls rs hl hr o ho)
    · split
      · exact L.leadingBound _ hl hr
      · exact L.lexicographic _ hl hr
termination_by (sizeOf ls + sizeOf rs, 1)

theorem eachComparison (d : Dialect) (op : ComparisonOperator) (ls rs : List Operand)
    (hl : operandsHold L ls) (hr : operandsHold L rs) :
    ∀ o ∈ Comparison.renderEach d op ls rs, L.test o := by
  match ls, rs with
  | l :: ls, r :: rs =>
      rw [Comparison.renderEach]
      intro o ho
      rcases List.mem_cons.1 ho with rfl | ho
      · exact comparison d l op r hl.1 hr.1
      · exact eachComparison d op ls rs hl.2 hr.2 o ho
  | [], _ => simp [Comparison.renderEach]
  | _ :: _, [] => simp [Comparison.renderEach]
termination_by (sizeOf ls + sizeOf rs, 0)

theorem selectTuple (d : Dialect) (selections tuple : List Operand) (op : ComparisonOperator)
    (hs : operandsHold L selections) (ht : operandsHold L tuple) :
    L.test (Comparison.selectTuple d selections tuple op) := by
  rw [Comparison.selectTuple.eq_def]
  split
  · exact selectTupleStandard d selections tuple op hs ht
  · exact tuples d selections tuple op true hs ht
  · exact tuples d selections tuple op false hs ht
termination_by (sizeOf selections + sizeOf tuple, 3)

theorem selectTupleStandard (d : Dialect) (selections tuple : List Operand)
    (op : ComparisonOperator) (hs : operandsHold L selections) (ht : operandsHold L tuple) :
    L.test (Comparison.selectTupleStandard d selections tuple op) := by
  rw [Comparison.selectTupleStandard.eq_def]
  split
  · have hleft := L.ofTest.append (L.ofTest.checkArity selections.length tuple.length)
      (L.ofTest.parenthesized (L.operandList hs))
    exact L.ofTest.append (L.ofTest.append hleft (L.operator op))
      (L.ofTest.parenthesized (L.operandList ht))
  · exact tuples d selections tuple op true hs ht
termination_by (sizeOf selections + sizeOf tuple, 2)

theorem subqueryComparison (d : Dialect) (ls : List Operand) (q : Subquery)
    (op : ComparisonOperator) (quantifier : Quantifier) (negated : Bool)
    (hl : operandsHold L ls) (hq : q.Holds L) :
    L.test (Comparison.subquery d ls q op quantifier negated) := by
  rw [Comparison.subquery.eq_def]
  split
  · exact L.ofTest.fail _
  · rename_i output movable source restriction selections
    obtain ⟨-, hsource, hrestriction, hselections⟩ := hq
    split
    · exact L.ofTest.fail _
    · have hnot := L.ofTest.fixed "not " rfl
      have hmoved := L.movedRestriction restriction rfl hrestriction
      have hwhere := L.ofQuery.append (L.query_of_source hsource)
        (L.ofQuery.fixed " where " rfl)
      have hmatch := L.ofTest.append (L.ofTest.when (quantifier == .all) hnot)
        (selectTuple d selections ls op.invert hselections hl)
      have hbody := L.ofQuery.append (L.ofQuery.append hwhere hmoved) (L.query_of_test hmatch)
      have hgroup := L.ofTest.bracketed .paren "exists (select 1" ")" rfl rfl hbody
      have hhead := L.ofTest.append (L.ofTest.append
        (L.ofTest.checkArity ls.length selections.length) (L.ofTest.when negated hnot))
        (L.ofTest.when (quantifier == .all) hnot)
      have hall := L.ofTest.append hhead hgroup
      simp only [Output.append_assoc] at hall ⊢
      exact hall
termination_by (sizeOf ls + sizeOf q, 0)

end

end Output.Layers

end DialectSql
