import DialectSql.Proofs.Layer.Expression

namespace DialectSql

def Limit.Holds (L : Output.Layers) (l : Option Limit) : Prop :=
  ∀ m, l = some m → L.expression m.output

namespace Output.Layers

variable (L : Layers)

theorem nullCheck {e : Operand} (he : e.Holds L) (negated : Bool) :
    L.test (Render.nullCheck e negated) := by
  rw [Render.nullCheck.eq_def]
  split
  · rename_i es
    split
    · apply L.ofTest.parenthesized
      apply L.query_of_condition
      apply L.ofCondition.joined rfl
      intro o ho
      obtain ⟨f, hf, rfl⟩ := List.mem_map.1 ho
      exact L.condition_of_test (L.nullTest (operandsHold_of_mem he.elements hf) negated)
    · exact L.nullTest he negated
  · exact L.nullTest he negated

theorem membershipGroup {e o : Output} (he : L.expression e) (ho : L.query o) (negated : Bool) :
    L.test (e ++ .word (Render.membership negated) ++ o ++ .word ")") := by
  have hgroup : L.test (.word (Render.membership negated) ++ o ++ .word ")") := by
    cases negated
    · exact L.ofTest.bracketed .paren _ _ rfl rfl ho
    · exact L.ofTest.bracketed .paren _ _ rfl rfl ho
  simpa only [Output.append_assoc] using
    L.ofTest.append (L.test_of_expression he) hgroup

theorem checkArities (n : Nat) (items : List Operand) :
    L.test (Render.checkArities n items) := by
  apply L.ofTest.concat
  intro o ho
  obtain ⟨i, -, rfl⟩ := List.mem_map.1 ho
  exact L.ofTest.checkArity _ _

theorem inList (d : Dialect) {e : Operand} {items : List Operand} (negated : Bool)
    (he : e.Holds L) (hi : operandsHold L items) :
    L.test (Render.inList d e items negated) := by
  have hnative := L.membershipGroup (L.operand he) (L.operandList hi) negated
  rw [Render.inList.eq_def]
  split
  · cases negated <;> exact L.ofTest.fixed _ rfl
  · dsimp only
    split
    · rename_i es
      apply L.ofTest.append (L.checkArities _ _)
      split
      · exact hnative
      · apply L.ofTest.append
          (L.ofTest.when negated (L.ofTest.fixed _ rfl))
        apply L.ofTest.parenthesized
        apply L.query_of_condition
        apply L.ofCondition.joined rfl
        intro o ho
        obtain ⟨i, hmem, rfl⟩ := List.mem_map.1 ho
        exact L.condition_of_test (L.tuples d es i.elements .equal false he.elements
          (operandsHold_of_mem hi hmem).elements)
    · exact hnative

theorem inSubquery (d : Dialect) {e : Operand} {q : Subquery} (negated : Bool) (he : e.Holds L)
    (hq : q.Holds L) : L.test (Render.inSubquery d e q negated) := by
  have hnative := L.membershipGroup (L.operand he) hq.output negated
  rw [Render.inSubquery.eq_def]
  dsimp only
  split
  · split
    · exact hnative
    · exact L.subqueryComparison d _ q .equal .any negated he.elements hq
  · exact hnative

theorem betweenRows (d : Dialect) {es ls hs : List Operand} (negated : Bool)
    (he : operandsHold L es) (hl : operandsHold L ls) (hh : operandsHold L hs) :
    L.test (checkArity es.length ls.length ++ checkArity es.length hs.length ++
      .when negated (.word "not ") ++
      (Comparison.tuples d es ls .greaterThanOrEqual true ++ .word " and " ++
        Comparison.tuples d es hs .lessThanOrEqual true).parenthesized) := by
  have hnot := L.ofTest.when negated (L.ofTest.fixed "not " rfl)
  have harity := L.ofTest.append (L.ofTest.checkArity es.length ls.length)
    (L.ofTest.checkArity es.length hs.length)
  have hlow := L.condition_of_test (L.tuples d es ls .greaterThanOrEqual true he hl)
  have hhigh := L.condition_of_test (L.tuples d es hs .lessThanOrEqual true he hh)
  have hbounds := L.ofCondition.append
    (L.ofCondition.append hlow (L.ofCondition.fixed " and " rfl)) hhigh
  exact L.ofTest.append (L.ofTest.append harity hnot)
    (L.ofTest.parenthesized (L.query_of_condition hbounds))

theorem between (d : Dialect) {e low high : Operand} (negated : Bool) (he : e.Holds L)
    (hl : low.Holds L) (hh : high.Holds L) :
    L.condition (Render.between d e low high negated) := by
  have hand := L.ofCondition.fixed " and " rfl
  rw [Render.between]
  split
  · exact L.condition_of_test (L.betweenRows d negated he.elements hl.elements hh.elements)
  · have hword : L.condition (.word (if negated then " not between " else " between ")) := by
      cases negated <;> exact L.ofCondition.fixed _ rfl
    exact L.ofCondition.append (L.ofCondition.append (L.ofCondition.append (L.ofCondition.append
      (L.condition_of_expression (L.operand he)) hword)
      (L.condition_of_expression (L.operand hl))) hand) (L.condition_of_expression (L.operand hh))

theorem like {e pattern : Output} (escape : Option Char) (negated : Bool) (he : L.expression e)
    (hp : L.expression pattern) : L.test (Render.like e pattern escape negated) := by
  have hword : L.test (.word (if negated then " not like " else " like ")) := by
    cases negated <;> exact L.ofTest.fixed _ rfl
  have hmatch := L.ofTest.append (L.ofTest.append (L.test_of_expression he) hword)
    (L.test_of_expression hp)
  cases escape with
  | none => exact L.ofTest.append hmatch L.ofTest.empty
  | some c =>
      exact L.ofTest.append hmatch (L.ofTest.append (L.ofTest.fixed _ rfl)
        (L.ofTest.unit rfl rfl))

theorem negated {o : Output} (h : L.condition o) : L.test (.word "not " ++ o.parenthesized) :=
  L.ofTest.append (L.ofTest.fixed _ rfl) (L.ofTest.parenthesized (L.query_of_condition h))

theorem existence {q : Subquery} (negated : Bool) (h : q.Holds L) :
    L.test (.when negated (.word "not ") ++ .word "exists " ++ q.output.parenthesized) :=
  L.ofTest.append (L.ofTest.append (L.ofTest.when negated (L.ofTest.fixed _ rfl))
    (L.ofTest.fixed _ rfl)) (L.ofTest.parenthesized h.output)

theorem wrapCondition (compound : Bool) {o : Output} (h : L.condition o) :
    L.condition (Render.wrap compound o) := by
  cases compound with
  | false => exact h
  | true => exact L.ofCondition.parenthesized (L.query_of_condition h)

theorem junction (nature : JunctionNature) {members : List (Bool × Output)}
    (h : ∀ m ∈ members, L.condition m.2) : L.condition (Render.junction nature members) := by
  have hseparator : (Lexeme.ofWord nature.separator).all Lexeme.ofCondition = true := by
    cases nature <;> decide
  rw [Render.junction.eq_def]
  split
  · cases nature <;> exact L.ofCondition.fixed _ rfl
  · rename_i compound o
    exact h (compound, o) (by simp)
  · refine L.ofCondition.joined hseparator fun o ho => ?_
    obtain ⟨⟨compound, p⟩, hm, rfl⟩ := List.mem_map.1 ho
    exact L.wrapCondition compound (h _ hm)

/-- The clause of a condition, for any property that its keyword and its condition have. -/
theorem condition_of_given {allowed : Lexeme → Bool} {P : Output → Prop}
    (hP : Closed allowed L.query P) (keyword : String)
    (hk : (Lexeme.ofWord keyword).all allowed = true) (p : Option Predicate) {o : Option Output}
    (h : ∀ c, o = some c → P c) :
    P (Render.condition keyword p o) := by
  rw [Render.condition.eq_def]
  split
  · split
    · exact hP.empty
    · exact hP.clause keyword hk h
  · exact hP.empty

theorem integerSum (terms : List Limit) (extra : Int64) :
    L.expression (RowLimit.integerSum terms extra) := by
  have hgo (total : Int) (isParameter : Bool) :
      L.expression (RowLimit.integerSum.go terms total isParameter) := by
    induction terms generalizing total isParameter with
    | nil =>
        rw [RowLimit.integerSum.go]
        split <;> exact L.ofExpression.unit rfl rfl
    | cons t ts ih =>
        rw [RowLimit.integerSum.go]
        split
        · exact L.ofExpression.fail _
        · dsimp only
          split
          · exact ih _ _
          · exact L.ofExpression.fail _
  exact hgo _ _

theorem upperBound (rule : UpperBoundRule) {fetch : Limit} {offset : Option Limit} (extra : Int64)
    (hf : L.expression fetch.output) (ho : Limit.Holds L offset) :
    L.expression (RowLimit.upperBound rule fetch offset extra) := by
  have hplus := L.ofExpression.fixed " + " rfl
  cases rule with
  | singleParameter => exact L.integerSum _ _
  | standard =>
      refine L.ofExpression.append (L.ofExpression.append hf ?_) (L.ofExpression.when _
        (L.ofExpression.append hplus (L.ofExpression.unit rfl rfl)))
      cases offset with
      | none => exact L.ofExpression.empty
      | some o => exact L.ofExpression.append hplus (ho o rfl)

theorem rowsTo (d : Dialect) {offset fetch : Option Limit} (kind : FetchKind)
    (ho : Limit.Holds L offset) (hf : Limit.Holds L fetch) :
    L.clause (RowLimit.rowsTo d offset fetch kind) := by
  rw [RowLimit.rowsTo.eq_def]
  split
  · exact L.ofClause.empty
  · split
    · exact L.ofClause.fail _
    · refine L.ofClause.append (L.ofClause.append (L.ofClause.append
        (L.ofClause.append (L.ofClause.fixed _ rfl) ?_) (L.ofClause.fixed _ rfl)) ?_)
        (L.ofClause.fixed _ rfl)
      · split
        · exact L.clause_of_expression (L.integerSum _ _)
        · exact L.ofClause.fixed _ rfl
      · split
        · exact L.clause_of_expression (L.upperBound _ _ (hf _ rfl) ho)
        · exact L.clause_of_expression (hf _ rfl)
        · exact L.ofClause.unit rfl rfl

/-- The words of the clause that limits the rows at the end of a query. -/
def rowLimitWords : List String :=
  [" offset ", " rows", " fetch first ", " rows with ties", " rows only", " limit ", " limit -1"]

/-- The row limit, for any property that its words and its expressions have. -/
theorem rowLimit_of_words {allowed : Lexeme → Bool} {P : Output → Prop}
    (hP : Closed allowed L.query P) (hwords : ∀ w ∈ rowLimitWords, (Lexeme.ofWord w).all allowed = true)
    (he : ∀ {o}, L.expression o → P o) (d : Dialect) {offset fetch : Option Limit} (kind : FetchKind)
    (ho : Limit.Holds L offset) (hf : Limit.Holds L fetch) :
    P (RowLimit.clause d offset fetch kind) := by
  have hword {w : String} (hw : w ∈ rowLimitWords) : P (.word w) := hP.word (hwords w hw)
  have hlimit {w : String} (hw : w ∈ rowLimitWords) {l : Limit} (hl : L.expression l.output) :
      P (.word w ++ l.output) := hP.append (hword hw) (he hl)
  rw [RowLimit.clause]
  split
  · rw [RowLimit.trailing.eq_def]
    dsimp only
    split
    · apply hP.append
      · split
        · exact hP.append (hlimit (by decide) (ho _ rfl)) (hword (by decide))
        · exact hP.empty
      · split
        · rename_i f
          refine hP.append (hP.append (hP.append (hP.require _ _) (hword (by decide)))
            (he (hf f rfl))) ?_
          split <;> exact hword (by decide)
        · exact hP.empty
    · refine hP.append (hP.append (hP.require _ _) ?_) ?_
      · split
        · exact hlimit (by decide) (hf _ rfl)
        · exact hP.when _ (hword (by decide))
        · exact hP.empty
      · split
        · exact hlimit (by decide) (ho _ rfl)
        · exact hP.empty
    · exact hP.empty
  · exact hP.empty

theorem rowLimit (d : Dialect) {offset fetch : Option Limit} (kind : FetchKind)
    (ho : Limit.Holds L offset) (hf : Limit.Holds L fetch) :
    L.clause (RowLimit.clause d offset fetch kind) :=
  L.rowLimit_of_words L.ofClause (by decide) L.clause_of_expression d kind ho hf

theorem selectList (distinct : Bool) {items : List Output} (h : ∀ o ∈ items, L.source o) :
    L.source (Render.selectList distinct items) := by
  refine L.ofSource.append (L.ofSource.when distinct (L.ofSource.fixed _ rfl)) ?_
  split
  · exact L.ofSource.fixed _ rfl
  · exact L.list h

theorem selectListOf (d : Dialect) {offset fetch : Option Limit} (kind : FetchKind) {o : Output}
    (ho : Limit.Holds L offset) (hf : Limit.Holds L fetch) (h : L.source o) :
    L.clause (Render.selectListOf d offset fetch kind o) := by
  rw [Render.selectListOf.eq_def]
  split
  · exact L.clause_of_source h
  · exact L.ofClause.append (L.rowsTo d kind ho hf) (L.clause_of_source h)

theorem namedTable (t : NamedTable) : L.expression (Render.namedTable t) :=
  L.qualified t.schema (L.ofExpression.unit rfl rfl)

theorem fromClause (d : Dialect) {roots : List Output} (h : ∀ o ∈ roots, L.source o) :
    L.source (Render.fromClause d roots) := by
  rw [Render.fromClause]
  split
  · rw [Render.missingFrom]
    split
    · split
      · exact L.ofSource.append (L.ofSource.fixed _ rfl) (L.ofSource.name _)
      · exact L.ofSource.empty
    · exact L.ofSource.empty
  · exact L.ofSource.append (L.ofSource.fixed _ rfl) (L.list h)

theorem checkCrossJoin (p : Option Predicate) : L.source (Render.checkCrossJoin p) :=
  L.ofSource.require _ _

theorem joinHead (d : Dialect) (type : JoinType) (p : Option Predicate) (lateral : Bool) :
    L.source (Render.joinHead d type p lateral) := by
  have hblank := L.ofSource.fixed " " rfl
  have htype : L.source (.word type.sql) := by cases type <;> exact L.ofSource.fixed _ rfl
  have hjoin := L.ofSource.append (L.ofSource.append hblank htype)
    (L.ofSource.fixed " join " rfl)
  have hlateral := L.ofSource.fixed "lateral " rfl
  rw [Render.joinHead.eq_def]
  split
  · exact L.ofSource.append
      (L.ofSource.append hjoin (L.ofSource.when _ (L.ofSource.append (L.ofSource.require _ _) hlateral)))
      (L.ofSource.when _ (L.checkCrossJoin p))
  · refine L.ofSource.append ?_ (L.ofSource.when _ hlateral)
    split
    · exact L.ofSource.append (L.checkCrossJoin p) (L.ofSource.fixed _ rfl)
    · exact hjoin

theorem joinCondition (d : Dialect) (type : JoinType) (p : Option Predicate) (lateral : Bool)
    {o : Option Output} (h : ∀ c, o = some c → L.condition c) :
    L.source (Render.joinCondition d type p lateral o) := by
  rw [Render.joinCondition.eq_def]
  dsimp only
  split_ifs
  · exact L.ofSource.empty
  · exact L.ofSource.clause " on " rfl fun c hc => L.source_of_condition (h c hc)
  · exact L.ofSource.append (L.ofSource.fixed _ rfl) (L.ofSource.fixed _ rfl)
  · exact L.ofSource.empty

theorem member (d : Dialect) (q : Query) {o : Output} (h : L.query o) :
    L.query (Render.member d q o) := by
  have hgroup := L.ofQuery.parenthesized h
  rw [Render.member.eq_def]
  dsimp only
  split_ifs
  · exact hgroup
  · exact L.ofQuery.append (L.ofQuery.append (L.ofQuery.append (L.ofQuery.fixed _ rfl) hgroup)
      (L.ofQuery.fixed _ rfl)) (L.ofQuery.unit rfl rfl)
  · exact h

theorem membersJoined {operator : Output} (hop : L.query operator) {members : List Output}
    (h : ∀ o ∈ members, L.query o) : L.query (Render.membersJoined operator members) := by
  have hblank := L.ofQuery.fixed " " rfl
  induction members with
  | nil => exact L.ofQuery.empty
  | cons o os ih =>
      cases os with
      | nil => exact h o (by simp)
      | cons p os =>
          have hrest := ih fun q hq => h q (List.mem_cons_of_mem o hq)
          exact L.ofQuery.append (L.ofQuery.append (L.ofQuery.append
            (L.ofQuery.append (h o (by simp)) hblank) hop) hblank) hrest

theorem setOperatorText (d : Dialect) (op : SetOperator) :
    L.query (Render.setOperatorText d op) := by
  cases op <;> rw [Render.setOperatorText.eq_def] <;> dsimp only <;>
    first
    | exact L.ofQuery.fixed _ rfl
    | split <;> exact L.ofQuery.fixed _ rfl

theorem setOperation (d : Dialect) (op : SetOperator) {members sorts : List Output}
    {offset fetch : Option Limit} (kind : FetchKind) (hm : ∀ o ∈ members, L.query o)
    (hs : ∀ o ∈ sorts, L.source o) (ho : Limit.Holds L offset) (hf : Limit.Holds L fetch) :
    L.query (Render.setOperation d op members sorts offset fetch kind) := by
  have hbody := L.membersJoined (L.setOperatorText d op) hm
  have horder := L.query_of_clause (L.orderBy hs)
  have hlimit := L.query_of_clause (L.rowLimit d kind ho hf)
  have hrange := L.query_of_clause (L.rowsTo d kind ho hf)
  refine L.ofQuery.append (L.ofQuery.append (L.ofQuery.require _ _) (L.ofQuery.require _ _)) ?_
  split
  · have hselect := L.ofQuery.append (L.ofQuery.append
      (L.ofQuery.append (L.ofQuery.fixed "select " rfl) hrange)
      (L.ofQuery.fixed "* from " rfl)) (L.ofQuery.parenthesized hbody)
    have halias := L.ofQuery.append (L.ofQuery.append hselect (L.ofQuery.fixed " " rfl))
      (L.ofQuery.unit (p := .derivedAlias) rfl rfl)
    exact L.ofQuery.append halias horder
  · exact L.ofQuery.append (L.ofQuery.append hbody horder) hlimit

end Output.Layers

end DialectSql
