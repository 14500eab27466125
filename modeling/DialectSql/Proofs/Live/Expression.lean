import DialectSql.Proofs.Live.Output
import DialectSql.Proofs.Rendered.Query

namespace DialectSql

theorem Render.partition_eq_map (d : Dialect) (es : List Expr) :
    partition d es = es.map fun e => partitionItem d.strategies.partition e (expression d e) := by
  induction es with
  | nil => rfl
  | cons e es ih => rw [partition, ih]; rfl

namespace Action

variable (s : Session)

theorem map_outputs_items (items : List Expr) :
    (items.map fun e => [call (.partitionItem none e)]).map (outputs s) =
      Render.partition s.dialect items := by
  rw [Render.partition_eq_map, List.map_map]
  exact List.map_congr_left fun e _ => Output.append_empty _

theorem outputs_windowed (f : Expr) (items : List Expr) (keys : List SortKey)
    (frame : Option WindowFrame) : outputs s (ofExpr s.dialect (.windowed f items keys frame)) =
      Render.expression s.dialect (.windowed f items keys frame) := by
  have hwindowed : Render.expression s.dialect (.windowed f items keys frame) =
      Render.windowed (Render.expression s.dialect f) (Render.partition s.dialect items)
        (Render.sortKeys s.dialect keys) frame := rfl
  have hempty : (Render.partition s.dialect items).isEmpty = items.isEmpty := by
    rw [Render.partition_eq_map, List.isEmpty_map]
  have hpartition : outputs s
      (text "partition by " :: separated ", " (items.map fun e => [call (.partitionItem none e)])) =
      .word "partition by " ++ .list (Render.partition s.dialect items) := by
    rw [outputs_cons, outputs_separated, map_outputs_items]
    rfl
  have hkeys : (Render.sortKeys s.dialect keys).isEmpty = keys.isEmpty := by
    rw [Render.sortKeys_eq_map, List.isEmpty_map]
  have horder : outputs s [text "order by ", call (.sortKeys keys)] =
      .word "order by " ++ .list (Render.sortKeys s.dialect keys) := by
    simp [Session.output]
  have hframes : (frame.toList.map fun f => [text f.sql]).map (outputs s) =
      frame.toList.map fun f => .word f.sql := by
    rw [List.map_map]
    exact List.map_congr_left fun f _ => Output.append_empty _
  rw [hwindowed, Render.windowed, hempty, hkeys]
  simp only [ofExpr, outputs_append, outputs_cons, outputs_nil, output_expression, output_text,
    outputs_parenthesized, outputs_separated, List.map_append, hframes, Output.append_empty]
  cases items.isEmpty <;> cases keys.isEmpty <;>
    simp only [Bool.false_eq_true, if_false, if_true, List.map_cons, List.map_nil, hpartition,
      horder]

theorem outputs_branches (branches : List WhenClause) :
    outputs s (branches.flatMap fun b =>
        [text " when ", predicate b.condition, text " then ", expression b.result]) =
      .concat (Render.whenClauses s.dialect branches) := by
  rw [Render.whenClauses_eq_map]
  induction branches with
  | nil => rfl
  | cons b bs ih =>
      rw [List.flatMap_cons, outputs_append, ih]
      simp [Output.concat, Output.append_assoc]

theorem outputs_case (branches : List WhenClause) (otherwise : Option Expr) :
    outputs s (ofExpr s.dialect (.case branches otherwise)) =
      Render.expression s.dialect (.case branches otherwise) := by
  have hempty : (Render.whenClauses s.dialect branches).isEmpty = branches.isEmpty := by
    rw [Render.whenClauses_eq_map, List.isEmpty_map]
  cases otherwise <;>
    rw [ofExpr, Render.expression, Render.operand, Operand.output, Render.caseOf, hempty] <;>
    cases branches.isEmpty <;>
    simp [outputs_branches, Output.clause, Output.append_assoc, Render.expression]

theorem outputs_ofExpr (e : Expr) :
    outputs s (ofExpr s.dialect e) = Render.expression s.dialect e := by
  cases e with
  | column | literal | parameter | star => exact Output.append_empty _
  | tuple es =>
      simp [ofExpr, Session.output, Render.expression, Render.operand, Operand.output]
  | summarization kind es => exact Output.append_empty _
  | binary left op right =>
      simp [ofExpr, Render.expression, Render.operand, Operand.output, Render.binary,
        Output.append_assoc]
  | negate e =>
      simp only [ofExpr, outputs_cons, output_text, outputs_wrap, output_expression, outputs_nil,
        Output.append_empty]
      rfl
  | function f es distinct =>
      simp [ofExpr, Session.output, Render.expression, Render.operand, Operand.output, Render.call,
        Output.append_assoc]
  | «case» branches otherwise => exact outputs_case s branches otherwise
  | cast e type =>
      simp [ofExpr, Render.expression, Render.operand, Operand.output, Output.append_assoc]
  | subquery q => simp [ofExpr, Render.expression, Render.operand, Operand.output]
  | quantified quantifier q =>
      simp [ofExpr, Render.expression, Render.operand, Operand.output, Output.append_assoc]
  | windowed f items keys frame => exact outputs_windowed s f items keys frame

theorem outputs_junction (nature : JunctionNature) (members : List Predicate) :
    outputs s (ofPredicate s.dialect (.junction nature members)) =
      Render.predicate s.dialect (.junction nature members) := by
  rw [Render.predicate, Render.predicates_eq_map]
  rcases members with _ | ⟨p, _ | ⟨q, ps⟩⟩
  · exact Output.append_empty _
  · exact Output.append_empty _
  · rw [ofPredicate, outputs_separated]
    · simp [Render.junction, Function.comp_def]
    all_goals simp

theorem outputs_nullCheck (e : Expr) (negated : Bool) :
    outputs s (ofPredicate s.dialect (.nullCheck e negated)) =
      Render.predicate s.dialect (.nullCheck e negated) := by
  rw [ofPredicate, Render.predicate, Render.nullCheck_eq, RowValue.isTuple_operand,
    Render.elements_operand, Render.length_operands]
  split
  · simp [RowValue.map_operands, Function.comp_def]
  · exact outputs_nullTest s e negated

theorem outputs_inList (e : Expr) (items : List Expr) (negated : Bool) :
    outputs s (ofPredicate s.dialect (.inList e items negated)) =
      Render.predicate s.dialect (.inList e items negated) := by
  have hempty : (Render.operands s.dialect items).isEmpty = items.isEmpty := by cases items <;> rfl
  have harities : outputs s
      (items.map fun i => emit (checkArity e.elements.length i.elements.length)) =
      Render.checkArities e.elements.length (Render.operands s.dialect items) := by
    rw [Render.checkArities, RowValue.map_operands]
    induction items with
    | nil => rfl
    | cons i items ih =>
        rw [List.map_cons, outputs_cons, ih (by cases items <;> rfl), List.map_cons,
          Render.elements_operand, Render.length_operands]
        rfl
  rw [ofPredicate, Render.predicate, Render.inList_eq, RowValue.isTuple_operand,
    Render.elements_operand, Render.length_operands, hempty]
  split
  · exact Output.append_empty _
  rw [outputs_append, outputs_when, harities]
  cases e.isTuple with
  | false =>
      simp [Output.when, Session.output, Render.expression, Output.append_assoc]
  | true =>
      cases s.dialect.capabilities.rowValueInList <;>
        simp [Output.when, Session.output, Render.expression, Output.append_assoc,
          RowValue.map_operands, Render.elements_operand, Function.comp_def]

theorem outputs_inSubquery (e : Expr) (q : Query) (negated : Bool) :
    outputs s (ofPredicate s.dialect (.inSubquery e q negated)) =
      Render.predicate s.dialect (.inSubquery e q negated) := by
  rw [ofPredicate, Render.predicate, Render.inSubquery_eq, RowValue.isTuple_operand,
    Render.elements_operand]
  split <;> simp [Session.output, Render.expression, Output.append_assoc]

theorem outputs_between (e low high : Expr) (negated : Bool) :
    outputs s (ofPredicate s.dialect (.between e low high negated)) =
      Render.predicate s.dialect (.between e low high negated) := by
  rw [ofPredicate, Render.predicate, Render.between]
  simp only [RowValue.isTuple_operand, Render.elements_operand, Render.length_operands]
  split <;> simp [Session.output, Render.expression, Output.append_assoc]

theorem outputs_ofPredicate (p : Predicate) :
    outputs s (ofPredicate s.dialect p) = Render.predicate s.dialect p := by
  cases p with
  | comparison l op r => exact Output.append_empty _
  | junction nature members => exact outputs_junction s nature members
  | negated p => simp [ofPredicate, Render.predicate]
  | nullCheck e negated => exact outputs_nullCheck s e negated
  | inList e items negated => exact outputs_inList s e items negated
  | inSubquery e q negated => exact outputs_inSubquery s e q negated
  | «exists» q negated => simp [ofPredicate, Render.predicate, Output.append_assoc]
  | between e low high negated => exact outputs_between s e low high negated
  | like e pattern escape negated =>
      cases escape <;>
        simp [ofPredicate, Render.predicate, Render.like, Render.expression, Output.append_assoc]
  | boolean e => exact Output.append_empty _

end Action

end DialectSql
