import DialectSql.Proofs.Existence.NullTests
import DialectSql.Proofs.Placeholder.Numbering
import DialectSql.Proofs.Rendered.Traversal

namespace DialectSql

open Output

namespace Lexeme

/-- An operator of distinctness stands in the text. -/
def TestsDistinctness (ls : List Lexeme) : Prop :=
  ∃ op : ComparisonOperator, op.isDistinctness = true ∧ ofWord op.sql <:+: ls

theorem not_testsDistinctness {ls : List Lexeme} (h : testsNullsOnly ls = true) :
    ¬TestsDistinctness ls := by
  rintro ⟨op, hop, before, behind, rfl⟩
  rw [List.append_assoc] at h
  have hrest := testsNullsOnly_behind h
  cases op with
  | distinct | notDistinct => cases hrest
  | _ => cases hop

end Lexeme

open Lexeme

namespace Comparison

/-- A test of distinctness keeps its operator although the operator is emulated. A value that is
tested against the rows of a query is never written out by null tests, and a row only where rows are
not understood. A set operation leaves no operator. -/
def keepsOperator (d : Dialect) (lhs rhs : Expr) : Bool :=
  d.strategies.comparison != .intersect &&
    match rhs with
    | .subquery _ => !lhs.isTuple || d.capabilities.rowValueConstructor
    | .quantified .. => !lhs.isTuple || d.capabilities.rowValueInQuantified || writesRows d
    | _ => false

theorem writesDistinctness_emulated {d : Dialect} (h : d.capabilities.distinctFrom = .emulated)
    (lhs rhs : Expr) : writesDistinctness d lhs rhs = keepsOperator d lhs rhs := by
  have hnative : (d.capabilities.distinctFrom == .native) = false := by rw [h]; rfl
  rw [writesDistinctness, standardWrites.eq_def, keepsOperator.eq_def]
  generalize lhs.isTuple = tuple
  cases d.strategies.comparison with
  | intersect => rfl
  | standard => cases rhs <;> simp [hnative]
  | lexicographic => cases tuple <;> cases rhs <;> simp [Expr.isTuple, hnative]

end Comparison

namespace Output

/-- Words are put together without a test of distinctness between them. -/
theorem additive_testsNullsOnly : Additive fun o => testsNullsOnly (Lexeme.ofPieces o.pieces) = true where
  empty := rfl
  fail _ := rfl
  append {a b} ha hb := by
    cases hfailure : a.failure with
    | some e => rwa [append_of_failure hfailure]
    | none =>
        rw [pieces_append hfailure, ofPieces_append]
        exact testsNullsOnly_append ha hb
  word h := by rw [pieces_word, ofPieces_word]; exact (Bool.and_eq_true_iff.1 h).1
  unit {p} h := by cases p <;> first | rfl | cases h

/-- Neither an operator of an expression nor a sign tests distinctness. -/
theorem testsNullsOnly_written {d : Dialect} {e : Expr}
    (hparts : ∀ m ∈ e.parts, testsNullsOnly (Lexeme.ofPieces (m.output d).pieces) = true) :
    ∀ o ∈ e.written d, testsNullsOnly (Lexeme.ofPieces o.pieces) = true := by
  intro o ho
  cases e with
  | binary l op r =>
      rw [List.mem_singleton.1 ho]
      cases op <;> rfl
  | negate e =>
      rw [List.mem_singleton.1 ho]
      have he := hparts (.expr e) (List.mem_singleton_self _)
      exact additive_testsNullsOnly.append rfl
        (((Composed.part _).wrap _).holds additive_testsNullsOnly (List.forall_mem_singleton.2 he))
  | _ => cases ho

end Output

namespace Statement

variable {d : Dialect} {lock : LockOptions} {s : Statement} {lhs rhs : Expr}
  {op : ComparisonOperator}

theorem Renders.operator (h : s.Renders d lock (.predicate (.comparison lhs op rhs)))
    (hop : op.isDistinctness = true) (hwrites : Comparison.writesDistinctness d lhs rhs = true) :
    (Output.word op.sql).Inside (Render.statement d lock s) := by
  refine h.written ?_
  rw [Node.written, Predicate.written, if_pos hwrites, ComparisonOperator.written, if_pos hop]
  exact List.mem_singleton_self _

/-- The text of a statement tests distinctness if a comparison in it writes the operator, and only
then. -/
theorem testsDistinctness_iff (hok : (Render.statement d lock s).failure = none) :
    TestsDistinctness (Lexeme.ofPieces (Render.statement d lock s).pieces) ↔
      ∃ lhs op rhs, op.isDistinctness = true ∧ Comparison.writesDistinctness d lhs rhs = true ∧
        s.Renders d lock (.predicate (.comparison lhs op rhs)) := by
  constructor
  · intro htests
    by_contra hnone
    refine not_testsDistinctness (holds additive_testsNullsOnly fun k hk hparts o ho => ?_) htests
    -- Only a comparison writes an operator itself, and then it is one that `hnone` excludes.
    match k with
    | .predicate (.comparison lhs op rhs) =>
        rw [Node.written, Predicate.written, ComparisonOperator.written] at ho
        split at ho
        · rename_i hwrites
          split at ho
          · rename_i hop
            exact absurd ⟨lhs, op, rhs, hop, hwrites, hk⟩ hnone
          · cases ho
        · cases ho
    | .expr _ => exact testsNullsOnly_written hparts o ho
    | .query .. => cases ho
    | .predicate (.junction ..) | .predicate (.negated _) | .predicate (.nullCheck ..)
    | .predicate (.inList ..) | .predicate (.inSubquery ..) | .predicate (.exists ..)
    | .predicate (.between ..) | .predicate (.like ..) | .predicate (.boolean _) => cases ho
  · rintro ⟨lhs, op, rhs, hop, hwrites, h⟩
    obtain ⟨before, behind, hpieces⟩ := (h.operator hop hwrites).pieces hok
    refine ⟨op, hop, Lexeme.ofPieces before, Lexeme.ofPieces behind, ?_⟩
    rw [← hpieces, ofPieces_append, ofPieces_append, pieces_word, ofPieces_word]

end Statement

theorem Translation.sql_word (style : PlaceholderStyle) {w : String} {ps : List Piece}
    (h : [.word w] <:+: ps) : ∃ before behind, sql style ps = before ++ w ++ behind := by
  obtain ⟨qs, rs, rfl⟩ := h
  obtain ⟨aliases, hleft⟩ := exists_join_texts_append style 0 0 qs [.word w]
  obtain ⟨aliases', hall⟩ := exists_join_texts_append style 0 0 (qs ++ [.word w]) rs
  rw [sql, hall, hleft]
  exact ⟨_, _, by simp [texts, Piece.text, String.append_assoc]; rfl⟩

/-- A dialect that emulates distinctness receives its operators exactly where a value, or a row that
is written as a row, is tested against the rows of a query. -/
theorem distinctness_sent {d : Dialect} (hemulated : d.capabilities.distinctFrom = .emulated)
    {lock : LockOptions} {s : Statement} {t : TranslatedSql}
    (ht : translateWithLock d s lock = .ok t) :
    (TestsDistinctness (Lexeme.ofPieces (Render.statement d lock s).pieces) ↔
      ∃ lhs op rhs, op.isDistinctness = true ∧ Comparison.keepsOperator d lhs rhs = true ∧
        s.Renders d lock (.predicate (.comparison lhs op rhs))) ∧
    ∀ lhs op rhs, op.isDistinctness = true → Comparison.keepsOperator d lhs rhs = true →
      s.Renders d lock (.predicate (.comparison lhs op rhs)) →
      ∃ before behind, t.sql = before ++ op.sql ++ behind := by
  have hok := translateWithLock_isOk.1 ⟨t, ht⟩
  refine ⟨?_, fun lhs op rhs hop hkeeps h => ?_⟩
  · simpa only [Comparison.writesDistinctness_emulated hemulated] using
      Statement.testsDistinctness_iff hok
  · rw [translateWithLock, Translation.ofOutput_of_complete _ hok, Except.ok.injEq] at ht
    subst ht
    rw [← Comparison.writesDistinctness_emulated hemulated] at hkeeps
    exact Translation.sql_word _ ((h.operator hop hkeeps).pieces hok)

theorem distinctness_sent_value :
    let delete : Statement := .delete ⟨⟨none, "t"⟩,
      some (.comparison (.column none "a") .distinct (.subquery (.spec Emulation.pairs)))⟩
    ∃ t, translateWithLock .nullTesting delete .unlocked = .ok t ∧
      TestsDistinctness (Lexeme.ofPieces (Render.statement .nullTesting .unlocked delete).pieces) ∧
      ∃ before behind, t.sql = before ++ " is distinct from " ++ behind := by
  intro delete
  have hplain (q : Query) : Comparison.render .nullTesting
      (Render.operand .nullTesting (.column none "a")) .distinct
      (Render.operand .nullTesting (.subquery q)) = Comparison.plain
        (Render.operand .nullTesting (.column none "a")) .distinct
        (Render.operand .nullTesting (.subquery q)) := by
    rw [Comparison.render.eq_def]
    exact Comparison.standard_value _ rfl _ _
  have hok : (Render.statement .nullTesting .unlocked delete).failure = none := by
    simp only [delete, Render.statement, Render.delete, Render.whereClause, Render.optionalPredicate,
      Render.predicate, hplain]
    decide
  obtain ⟨t, ht⟩ := translateWithLock_isOk.2 hok
  obtain ⟨hiff, hsql⟩ := distinctness_sent rfl ht
  have hrenders : delete.Renders .nullTesting .unlocked (.predicate (.comparison
      (.column none "a") .distinct (.subquery (.spec Emulation.pairs)))) :=
    ⟨_, List.mem_singleton_self _, .here⟩
  exact ⟨t, ht, hiff.2 ⟨_, _, _, rfl, rfl, hrenders⟩, hsql _ _ _ rfl rfl hrenders⟩

end DialectSql
