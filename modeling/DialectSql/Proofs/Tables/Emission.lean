import DialectSql.Proofs.Live.Termination

namespace DialectSql

namespace Output

/-- No table is named. -/
def Tableless (o : Output) : Prop := ∀ n, Piece.table n ∉ o.pieces

@[simp] theorem tableless_ofPieces (ps : List Piece) :
    (ofPieces ps).Tableless ↔ ∀ n, Piece.table n ∉ ps := Iff.rfl

namespace Tableless

variable {a b o : Output}

@[simp] theorem empty : Tableless .empty := fun _ => List.not_mem_nil

@[simp] theorem fail (e : TranslateError) : Tableless (.fail e) := fun _ => List.not_mem_nil

@[simp] theorem word (w : String) : Tableless (.word w) := fun n => by simp

@[simp] theorem name (n : String) : Tableless (.name n) := fun n => by simp

theorem append (ha : a.Tableless) (hb : b.Tableless) : (a ++ b).Tableless := by
  cases h : a.failure with
  | some e => rwa [append_of_failure h]
  | none =>
      intro n hn
      rw [pieces_append h] at hn
      exact (List.mem_append.1 hn).elim (ha n) (hb n)

@[simp] theorem require (condition : Bool) (e : TranslateError) :
    Tableless (.require condition e) := by
  cases condition
  · exact fail e
  · exact empty

@[simp] theorem checkArity (m n : Nat) : (DialectSql.checkArity m n).Tableless := require _ _

theorem when (condition : Bool) (ho : o.Tableless) : Tableless (.when condition o) := by
  cases condition
  · exact empty
  · exact ho

theorem parenthesized (ho : o.Tableless) : o.parenthesized.Tableless :=
  ((word "(").append ho).append (word ")")

theorem joined (separator : String) {os : List Output} (ho : ∀ o ∈ os, o.Tableless) :
    Tableless (.joined separator os) := by
  induction os with
  | nil => exact empty
  | cons o os ih =>
      cases os with
      | nil => exact ho o (by simp)
      | cons p os =>
          have hrest := ih fun q hq => ho q (List.mem_cons_of_mem o hq)
          exact ((ho o (by simp)).append (word separator)).append hrest

theorem nameList (names : List String) : Tableless (.nameList names) :=
  joined ", " (List.forall_mem_map.2 fun n _ => name n)

@[simp] theorem label (l : Option String) : Tableless (.label l) := by
  cases l with
  | none => exact empty
  | some l => exact (word " ").append (name l)

theorem clause (keyword : String) {o : Option Output} (h : ∀ p ∈ o, p.Tableless) :
    Tableless (.clause keyword o) := by
  cases o with
  | none => exact empty
  | some p => exact (word keyword).append (h p rfl)

theorem value (v : SqlValue) : Tableless (.ofPieces v.pieces) := by
  cases v <;> simp [SqlValue.pieces]

theorem literal (d : Dialect) (v : SqlValue) : (Render.literal d v).Tableless := by
  rw [Render.literal.eq_def]
  split
  · intro n
    simp
  · exact value _

theorem qualified (qualifier : Option String) (ho : o.Tableless) :
    (Render.qualified qualifier o).Tableless := by
  cases qualifier with
  | none => exact ho
  | some q => exact ((name q).append (word ".")).append ho

end Tableless

end Output

namespace Render

open Output (Tableless)

variable (d : Dialect)

theorem tableless_joinHead (type : JoinType) (p : Option Predicate) (lateral : Bool) :
    (joinHead d type p lateral).Tableless := by
  have hcheck : (checkCrossJoin p).Tableless := .require _ _
  have hkeywords := ((Tableless.word " ").append (.word type.sql)).append (.word " join ")
  rw [joinHead.eq_def]
  split
  · exact (hkeywords.append (.when _ ((Tableless.require _ _).append (.word _)))).append
      (.when _ hcheck)
  · refine Tableless.append ?_ (.when _ (.word _))
    split
    · exact hcheck.append (.word _)
    · exact hkeywords

theorem tableless_missingFrom : (missingFrom d).Tableless := by
  rw [missingFrom]
  split
  · cases d.capabilities.dualTable with
    | none => exact .empty
    | some dual => exact (Tableless.word _).append (.name dual)
  · exact .empty

theorem tableless_checkSetOperator (op : SetOperator) : (checkSetOperator d op).Tableless :=
  .require _ _

theorem tableless_setOperatorText (op : SetOperator) : (setOperatorText d op).Tableless := by
  rw [setOperatorText.eq_def]
  split <;> simp

theorem tableless_lockOf (lock : Option LockScope) (s : QuerySpec) :
    (lockOf d lock s).Tableless := by
  rw [lockOf.eq_def]
  split
  · rw [Locking.render]
    split
    · exact .empty
    split
    · exact fun n => by simp
    split
    · exact .fail _
    · exact fun n => by simp
    · refine .append ((Tableless.word _).append
        (.when _ ((Tableless.word _).append (.nameList _)))) ?_
      rw [Locking.timeoutOutput.eq_def]
      split
      · exact .empty
      · exact .when _ (.word _)
      · exact .when _ (.word _)
      · exact .when _ ((Tableless.word _).append fun n => by simp)
  · exact .empty

theorem tableless_integerSum (terms : List Limit) (extra : Int64) :
    (RowLimit.integerSum terms extra).Tableless := by
  have hgo (total : Int) (isParameter : Bool) :
      (RowLimit.integerSum.go terms total isParameter).Tableless := by
    induction terms generalizing total isParameter with
    | nil =>
        rw [RowLimit.integerSum.go]
        split <;> exact fun n => by simp
    | cons t ts ih =>
        rw [RowLimit.integerSum.go]
        split
        · exact .fail _
        · dsimp only
          split
          · exact ih _ _
          · exact .fail _
  exact hgo _ _

theorem tableless_searchClause (rule : SearchRule) (search : Option SearchClause) :
    (searchClause d rule search).Tableless := by
  rw [searchClause.eq_def]
  split
  · rename_i search
    rw [searchStandard]
    split
    · exact .empty
    · have hitems : ∀ o ∈ search.items.map searchItem, o.Tableless :=
        List.forall_mem_map.2 fun item _ => (Tableless.name _).append (.when _ (.word _))
      exact (((((Tableless.word _).append (.word _)).append (.word _)).append
        (.joined ", " hitems)).append (.word _)).append (.name _)
  · exact .empty

theorem tableless_cycleClause (rule : CycleRule) (cte : String) (cycle : Option CycleClause) :
    (cycleClause d rule cte cycle).Tableless := by
  have hgap (g : CapabilityGap) : Tableless (.ofPieces [.gap g]) := fun n => by simp
  rw [cycleClause.eq_def]
  split
  · exact .empty
  · rename_i cycle
    rw [cycleStandard]
    split
    · exact hgap _
    · have hmark := (((Tableless.word " cycle ").append (.nameList cycle.columns)).append
        (.word " set ")).append (.name cycle.markColumn)
      have hvalues := (((hmark.append (.word " to ")).append (.value cycle.cycleValue)).append
        (.word " default ")).append (.value cycle.nonCycleValue)
      refine hvalues.append (.clause " using " fun o ho => ?_)
      obtain ⟨column, -, rfl⟩ := Option.map_eq_some_iff.1 ho
      exact .name column
  · exact hgap _

end Render

namespace Action

mutual

/-- No table is named, but for those of the calls. -/
def Tableless : Action → Prop
  | .emit o => o.Tableless
  | .call _ => True
  | .within _ _ actions => AllTableless actions

def AllTableless : List Action → Prop
  | [] => True
  | a :: as => a.Tableless ∧ AllTableless as

end

@[simp] theorem tableless_emit (o : Output) : (emit o).Tableless ↔ o.Tableless := Iff.rfl

@[simp] theorem tableless_text (w : String) : (text w).Tableless := Output.Tableless.word w

@[simp] theorem tableless_fail (e : TranslateError) : (fail e).Tableless := Output.Tableless.fail e

@[simp] theorem tableless_call (c : RenderCall) : (call c).Tableless := trivial

@[simp] theorem tableless_expression (e : Expr) : (expression e).Tableless := trivial

@[simp] theorem tableless_predicate (p : Predicate) : (predicate p).Tableless := trivial

@[simp] theorem tableless_within (q : Query) (root : Bool) (as : List Action) :
    (within q root as).Tableless ↔ AllTableless as := Iff.rfl

@[simp] theorem allTableless_nil : AllTableless [] := trivial

@[simp] theorem allTableless_cons (a : Action) (as : List Action) :
    AllTableless (a :: as) ↔ a.Tableless ∧ AllTableless as := Iff.rfl

theorem allTableless_iff (as : List Action) : AllTableless as ↔ ∀ a ∈ as, a.Tableless := by
  induction as with
  | nil => simp
  | cons a as ih => rw [allTableless_cons, ih, List.forall_mem_cons]

@[simp] theorem allTableless_append (as bs : List Action) :
    AllTableless (as ++ bs) ↔ AllTableless as ∧ AllTableless bs := by
  simp only [allTableless_iff, List.forall_mem_append]

@[simp] theorem allTableless_flatMap {α : Type} (l : List α) (f : α → List Action) :
    AllTableless (l.flatMap f) ↔ ∀ x ∈ l, AllTableless (f x) := by
  induction l with
  | nil => simp
  | cons x l ih => rw [List.flatMap_cons, allTableless_append, ih, List.forall_mem_cons]

@[simp] theorem allTableless_map {α : Type} (l : List α) (f : α → Action) :
    AllTableless (l.map f) ↔ ∀ x ∈ l, (f x).Tableless := by
  simp only [allTableless_iff, List.forall_mem_map]

@[simp] theorem allTableless_when (condition : Bool) (as : List Action) :
    AllTableless (when condition as) ↔ (condition = true → AllTableless as) := by
  cases condition <;> simp [when]

@[simp] theorem allTableless_parenthesized (as : List Action) :
    AllTableless (parenthesized as) ↔ AllTableless as := by
  simp [parenthesized]

@[simp] theorem allTableless_wrap (condition : Bool) (as : List Action) :
    AllTableless (wrap condition as) ↔ AllTableless as := by
  cases condition <;> simp [wrap]

@[simp] theorem allTableless_separated (separator : String) (rows : List (List Action)) :
    AllTableless (separated separator rows) ↔ ∀ as ∈ rows, AllTableless as := by
  fun_induction separated separator rows with
  | case1 => simp
  | case2 as => simp
  | case3 as bs rest ih =>
      simp only [allTableless_append, allTableless_cons, tableless_text, true_and, ih,
        List.forall_mem_cons]

@[simp] theorem allTableless_nested (q : Query) : AllTableless (nested q) := by
  simp [nested]

@[simp] theorem allTableless_plain (l : Expr) (op : ComparisonOperator) (r : Expr) :
    AllTableless (plain l op r) := by
  simp [plain]

@[simp] theorem allTableless_nullTest (e : Expr) (negated : Bool) :
    AllTableless (nullTest e negated) := by
  simp [nullTest]

@[simp] theorem allTableless_distinctByNullTests (l : Expr) (op : ComparisonOperator) (r : Expr) :
    AllTableless (distinctByNullTests l op r) := by
  by_cases hop : op = .distinct <;> simp [distinctByNullTests, hop]

@[simp] theorem allTableless_lexicographic (op : ComparisonOperator) (ls rs : List Expr) :
    AllTableless (lexicographic op ls rs) := by
  fun_induction lexicographic op ls rs <;> simp_all

@[simp] theorem allTableless_leadingBound (op : ComparisonOperator) (ls rs : List Expr) :
    AllTableless (leadingBound op ls rs) := by
  fun_induction leadingBound op ls rs <;> simp_all

end Action

end DialectSql
