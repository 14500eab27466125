import DialectSql.Proofs.Live.Action
import DialectSql.Proofs.Rendered.Predicate

namespace DialectSql

namespace Action

mutual

/-- What an action renders, where its calls render what the session renders for them. -/
def output : Session → Action → Output
  | _, .emit o => o
  | s, .call c => s.output c
  | s, .within q root actions => outputs (s.push q root) actions

def outputs : Session → List Action → Output
  | _, [] => .empty
  | s, a :: as => a.output s ++ outputs s as

end

variable {s : Session} {d : Dialect}

@[simp] theorem output_emit (s : Session) (o : Output) : (emit o).output s = o := rfl

@[simp] theorem output_text (s : Session) (w : String) : (text w).output s = .word w := rfl

@[simp] theorem output_fail (s : Session) (e : TranslateError) : (fail e).output s = .fail e := rfl

@[simp] theorem output_call (s : Session) (c : RenderCall) : (call c).output s = s.output c := rfl

@[simp] theorem output_expression (s : Session) (e : Expr) :
    (expression e).output s = Render.expression s.dialect e := rfl

@[simp] theorem output_predicate (s : Session) (p : Predicate) :
    (predicate p).output s = Render.predicate s.dialect p := rfl

@[simp] theorem output_within (s : Session) (q : Query) (root : Bool) (actions : List Action) :
    (within q root actions).output s = outputs (s.push q root) actions := rfl

@[simp] theorem outputs_nil (s : Session) : outputs s [] = .empty := rfl

@[simp] theorem outputs_cons (s : Session) (a : Action) (as : List Action) :
    outputs s (a :: as) = a.output s ++ outputs s as := rfl

@[simp] theorem outputs_append (s : Session) (as bs : List Action) :
    outputs s (as ++ bs) = outputs s as ++ outputs s bs := by
  induction as with
  | nil => simp
  | cons a as ih => simp [ih, Output.append_assoc]

@[simp] theorem outputs_when (s : Session) (condition : Bool) (as : List Action) :
    outputs s (when condition as) = .when condition (outputs s as) := by
  cases condition <;> rfl

@[simp] theorem outputs_parenthesized (s : Session) (as : List Action) :
    outputs s (parenthesized as) = (outputs s as).parenthesized := by
  simp [parenthesized, Output.parenthesized, Output.append_assoc]

@[simp] theorem outputs_wrap (s : Session) (condition : Bool) (as : List Action) :
    outputs s (wrap condition as) = Render.wrap condition (outputs s as) := by
  cases condition <;> simp [wrap, Render.wrap]

@[simp] theorem outputs_separated (s : Session) (separator : String) (rows : List (List Action)) :
    outputs s (separated separator rows) = .joined separator (rows.map (outputs s)) := by
  fun_induction separated separator rows with
  | case1 => rfl
  | case2 as => rfl
  | case3 as bs rest ih =>
      rw [outputs_append, outputs_cons, ih, ← Output.append_assoc]
      rfl

@[simp] theorem outputs_nested (s : Session) (q : Query) :
    outputs s (nested q) = (Render.query s.dialect none q).output.parenthesized := by
  simp [nested, Session.output]

section

variable (s : Session)

@[simp] theorem outputs_plain (l : Expr) (op : ComparisonOperator) (r : Expr) :
    outputs s (plain l op r) =
      Comparison.plain (Render.operand s.dialect l) op (Render.operand s.dialect r) := by
  simp [plain, Comparison.plain, Render.expression, Output.append_assoc]

@[simp] theorem outputs_nullTest (e : Expr) (negated : Bool) :
    outputs s (nullTest e negated) = Comparison.nullTest (Render.operand s.dialect e) negated := by
  simp [nullTest, Comparison.nullTest, Render.expression]

@[simp] theorem outputs_distinctByNullTests (l : Expr) (op : ComparisonOperator) (r : Expr) :
    outputs s (distinctByNullTests l op r) =
      Comparison.distinctByNullTests (Render.operand s.dialect l) op
        (Render.operand s.dialect r) := by
  by_cases hop : op = .distinct <;>
    simp [distinctByNullTests, Comparison.distinctByNullTests, hop, Output.append_assoc]

@[simp] theorem outputs_lexicographic (op : ComparisonOperator) (ls rs : List Expr) :
    outputs s (lexicographic op ls rs) =
      Comparison.lexicographic op (Render.operands s.dialect ls) (Render.operands s.dialect rs) := by
  fun_induction lexicographic op ls rs with
  | case1 l r rs => exact outputs_plain s l op r
  | case2 l ls r rs hne ih =>
      cases ls with
      | nil => exact absurd rfl hne
      | cons k ls =>
          simp only [Render.operands, Comparison.lexicographic] at ih ⊢
          simp [ih, Output.append_assoc]
  | case3 ls rs hone hmore =>
      obtain rfl | rfl := Comparison.eq_nil_of_unpaired hmore
      · rfl
      · rcases ls with _ | ⟨l, _ | ⟨k, ls⟩⟩ <;> rfl

@[simp] theorem outputs_leadingBound (op : ComparisonOperator) (ls rs : List Expr) :
    outputs s (leadingBound op ls rs) =
      Comparison.leadingBound op (Render.operands s.dialect ls) (Render.operands s.dialect rs) := by
  fun_induction leadingBound op ls rs with
  | case1 l r rs => exact outputs_plain s l op r
  | case2 l ls r rs hne ih =>
      cases ls with
      | nil => exact absurd rfl hne
      | cons k ls =>
          simp only [Render.operands, Comparison.leadingBound] at ih ⊢
          simp [ih, Output.append_assoc]
  | case3 ls rs hone hmore =>
      obtain rfl | rfl := Comparison.eq_nil_of_unpaired hmore
      · rfl
      · rcases ls with _ | ⟨l, _ | ⟨k, ls⟩⟩ <;> rfl

theorem outputs_expressions (es : List Expr) :
    s.output (.expressions es) = .list (operandOutputs (Render.operands s.dialect es)) := rfl

theorem outputs_intersection (ls : List Expr) (op : ComparisonOperator) (rs : List Expr) :
    outputs s (intersection s.dialect ls op rs) =
      Comparison.distinctByIntersect s.dialect (Render.operands s.dialect ls) op
        (Render.operands s.dialect rs) := by
  rw [intersection, Comparison.distinctByIntersect, Render.length_operands,
    Render.length_operands, outputs_cons, output_emit]
  cases s.dialect.capabilities.dualTable <;>
    simp [outputs_expressions, Output.append_assoc]

/-- A comparison with a single value. -/
theorem standard_scalar (d : Dialect) (l : Expr) (op : ComparisonOperator) {r : Expr}
    (h : r.isScalar = true) : standard d l op r =
      if l.isTuple then [fail (.tupleArity l.elements.length 1)]
      else if op.isDistinctness && d.capabilities.distinctFrom == .emulated then
        distinctByNullTests l op r
      else plain l op r := by
  cases r <;> first | rfl | cases h

theorem outputs_standard_value {l : Expr} (hl : l.isTuple = false) (op : ComparisonOperator)
    (r : Expr) : outputs s (standard s.dialect l op r) =
      Comparison.standard s.dialect (Render.operand s.dialect l) op
        (Render.operand s.dialect r) := by
  rw [Comparison.standard_value _ (by rw [RowValue.isTuple_operand, hl])]
  by_cases hscalar : r.isScalar = true
  · obtain ⟨o, ho⟩ := Render.operand_scalar s.dialect hscalar
    rw [standard_scalar s.dialect l op hscalar, hl, ho]
    dsimp only
    rw [← ho, if_neg Bool.false_ne_true]
    split <;> simp
  · cases r with
    | tuple rs => simp [standard, hl, Render.operand, Render.length_operands]
    | subquery q => simp [standard, hl, Render.operand]
    | quantified quantifier q => simp [standard, hl, Render.operand]
    | _ => exact absurd rfl hscalar

theorem outputs_standard (l : Expr) (op : ComparisonOperator) (r : Expr) :
    outputs s (standard s.dialect l op r) =
      Comparison.standard s.dialect (Render.operand s.dialect l) op
        (Render.operand s.dialect r) := by
  cases hl : l.isTuple with
  | false => exact outputs_standard_value s hl op r
  | true =>
      obtain ⟨ls, rfl⟩ := Expr.eq_tuple hl
      by_cases hscalar : r.isScalar = true
      · obtain ⟨o, ho⟩ := Render.operand_scalar s.dialect hscalar
        rw [standard_scalar s.dialect _ op hscalar, hl, ho, Render.operand,
          Comparison.standard.eq_def]
        simp [Expr.elements, Render.length_operands]
      · cases r with
        | tuple rs =>
            rw [standard, Render.operand, Render.operand, Comparison.standard.eq_def]
            simp only [hl, if_true, outputs_cons, output_emit, Expr.elements,
              Render.length_operands]
            congr 1
            split
            · simp [Render.operand]
            · simp [Session.output]
        | subquery q =>
            rw [standard, Render.operand, Render.operand, Comparison.standard.eq_def]
            cases hcapability : s.dialect.capabilities.rowValueConstructor <;>
              simp [hl, Expr.elements, Session.output, Render.operand]
        | quantified quantifier q =>
            rw [standard, Render.operand, Render.operand, Comparison.standard.eq_def]
            cases hcapability : s.dialect.capabilities.rowValueInQuantified <;>
              simp [hl, Expr.elements, Session.output, Render.operand]
        | _ => exact absurd rfl hscalar

theorem outputs_intersect (l : Expr) (op : ComparisonOperator) (r : Expr) :
    outputs s (comparison s.dialect .intersect l op r) =
      Comparison.intersect s.dialect (Render.operand s.dialect l) op
        (Render.operand s.dialect r) := by
  rw [comparison, Comparison.intersect, Render.elements_operand, Render.elements_operand]
  split
  · exact outputs_intersection s _ op _
  · exact outputs_standard s l op r

theorem outputs_comparison (l : Expr) (op : ComparisonOperator) (r : Expr) :
    outputs s (comparison s.dialect s.dialect.strategies.comparison l op r) =
      Comparison.render s.dialect (Render.operand s.dialect l) op
        (Render.operand s.dialect r) := by
  cases hrule : s.dialect.strategies.comparison with
  | standard =>
      rw [Comparison.render.eq_def, hrule]
      exact outputs_standard s l op r
  | intersect =>
      rw [Comparison.render.eq_def, hrule]
      exact outputs_intersect s l op r
  | lexicographic =>
      cases htuples : l.isTuple && r.isTuple with
      | false =>
          rw [Comparison.render_value hrule
            (by rw [RowValue.isTuple_operand, RowValue.isTuple_operand, htuples]), comparison,
            htuples]
          exact outputs_standard s l op r
      | true =>
          obtain ⟨hl, hr⟩ := Bool.and_eq_true_iff.1 htuples
          obtain ⟨ls, rfl⟩ := Expr.eq_tuple hl
          obtain ⟨rs, rfl⟩ := Expr.eq_tuple hr
          rw [Comparison.render.eq_def, hrule, comparison, htuples]
          simp [Expr.elements, Session.output, Render.operand]

theorem outputs_tuples (ls rs : List Expr) (op : ComparisonOperator) (bounded : Bool) :
    outputs s (tuples ls rs op bounded) =
      Comparison.tuples s.dialect (Render.operands s.dialect ls) (Render.operands s.dialect rs) op
        bounded := by
  have hempty : (Render.operands s.dialect ls).isEmpty = ls.isEmpty := by cases ls <;> rfl
  have hplains : ((ls.zip rs).map fun p => plain p.1 op p.2).map (outputs s) =
      Comparison.plainEach op (Render.operands s.dialect ls) (Render.operands s.dialect rs) := by
    rw [Comparison.plainEach_eq, Render.operands_eq_map, Render.operands_eq_map, List.zip_map,
      List.map_map, List.map_map]
    exact List.map_congr_left fun p _ => outputs_plain s p.1 op p.2
  have hcomparisons :
      ((ls.zip rs).map fun p => [call (.comparison none p.1 op p.2)]).map (outputs s) =
      Comparison.renderEach s.dialect op (Render.operands s.dialect ls)
        (Render.operands s.dialect rs) := by
    rw [Comparison.renderEach_eq, Render.operands_eq_map, Render.operands_eq_map, List.zip_map,
      List.map_map, List.map_map]
    exact List.map_congr_left fun p _ => Output.append_empty _
  rw [tuples, Comparison.tuples.eq_def, outputs_cons, output_emit, Render.length_operands,
    Render.length_operands, hempty]
  congr 1
  split
  · rfl
  · rw [outputs_parenthesized]
    congr 1
    cases op with
    | equal | notEqual => exact (outputs_separated s _ _).trans (congrArg _ hplains)
    | distinct | notDistinct => exact (outputs_separated s _ _).trans (congrArg _ hcomparisons)
    | _ => cases bounded <;> simp

theorem outputs_selectStandard (columns tuple : List Expr) (op : ComparisonOperator) :
    outputs s (selectTuple s.dialect .standard columns tuple op) =
      Comparison.selectTupleStandard s.dialect (Render.operands s.dialect columns)
        (Render.operands s.dialect tuple) op := by
  rw [selectTuple, Comparison.selectTupleStandard]
  split
  · simp [outputs_expressions, Render.length_operands, Output.append_assoc]
  · exact Output.append_empty _

theorem outputs_selectTuple (columns tuple : List Expr) (op : ComparisonOperator) :
    outputs s (selectTuple s.dialect s.dialect.strategies.selectTuple columns tuple op) =
      Comparison.selectTuple s.dialect (Render.operands s.dialect columns)
        (Render.operands s.dialect tuple) op := by
  rw [Comparison.selectTuple]
  cases s.dialect.strategies.selectTuple with
  | standard => exact outputs_selectStandard s columns tuple op
  | emulate | lexicographic => exact Output.append_empty _

end

end Action

end DialectSql
