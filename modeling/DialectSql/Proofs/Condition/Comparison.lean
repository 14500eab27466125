import DialectSql.Proofs.Condition.Value
import DialectSql.Proofs.Layer.Query

namespace DialectSql

namespace Condition

theorem operator?_eq_none {m : String} (h : m ∉ Lexeme.operatorWords) : operator? m = none := by
  rw [operator?.eq_def]
  split <;> first | rfl | exact absurd (by decide) h

theorem isKey_of_expression {p : Part} (h : p.isAllowed Lexeme.ofExpression = true) {w : String}
    (hw : w ∈ Lexeme.operatorWords) : p.isKey w = false := by
  have hexpression : p.isAllowed (Lexeme.avoids Lexeme.operatorWords) = true := by
    cases p with
    | group => rfl
    | leaf l =>
        simp only [Part.isAllowed, Lexeme.ofExpression, Bool.and_eq_true] at h
        exact Lexeme.avoids_of_subset (List.subset_append_right _ _) h.1
  exact isKey_of_avoids hexpression hw

theorem continued?_operator {m : String} {op : ComparisonOperator} (hm : operator? m = some op)
    (seen : List Lexeme) (qs : List Part) :
    continued? seen (.leaf (.mark m) :: qs) = some (.comparison seen op (partsText qs)) := by
  have his : m ≠ "is" := by
    rintro rfl
    simp [operator?] at hm
  rw [continued?.eq_def, List.map_cons]
  split
  · simp_all [Part.key?]
  · simp_all [Part.key?]
  · simp_all [Part.key?]
  · simp_all [Part.key?]
  · simp_all [Part.key?]
  · simp_all [Part.key?]

theorem continued?_of_expression {p : Part} (h : p.isAllowed Lexeme.ofExpression = true)
    (seen : List Lexeme) (ps : List Part) : continued? seen (p :: ps) = none := by
  cases hk : p.key? with
  | none => simp [continued?, hk]
  | some w =>
      have hother {v : String} (hv : v ∈ Lexeme.operatorWords) : w ≠ v := by
        have hkey := isKey_of_expression h hv
        rintro rfl
        simp [Part.isKey, hk] at hkey
      have hnone := operator?_eq_none fun hw => hother hw rfl
      have his : w ≠ "is" := hother (by decide)
      rw [continued?.eq_def, List.map_cons, hk]
      split
      · simp_all
      · simp_all
      · simp_all
      · simp_all
      · simp_all
      · rfl

theorem readTest_continued {ps : List Part} (h : ∀ p ∈ ps, p.isAllowed Lexeme.ofExpression = true)
    (seen : List Lexeme) {q : Part} {qs : List Part} {c : Condition}
    (hc : continued? (seen ++ partsText ps) (q :: qs) = some c) :
    readTest seen (ps ++ q :: qs) = c := by
  induction ps generalizing seen with
  | nil =>
      rw [partsText_nil, List.append_nil] at hc
      rw [List.nil_append, readTest, hc, Option.getD_some]
  | cons p ps ih =>
      have hp := continued?_of_expression (h p (by simp)) seen (ps ++ q :: qs)
      rw [partsText_cons, ← List.append_assoc] at hc
      rw [List.cons_append, readTest, hp, Option.getD_none,
        ih (fun r hr => h r (List.mem_cons_of_mem p hr)) (seen ++ p.text) hc]

/-- A test goes on behind its first operand with a word or a mark that is no negation. -/
theorem readFactor_continued {ps : List Part}
    (h : ∀ p ∈ ps, p.isAllowed Lexeme.ofExpression = true) {l : Lexeme}
    (hl : (Part.leaf l).isKey "not" = false) {qs : List Part} {c : Condition}
    (hc : continued? (partsText ps) (.leaf l :: qs) = some c) :
    readFactor (ps ++ .leaf l :: qs) = c := by
  have htest := readTest_continued h [] (by simpa using hc)
  rw [← htest]
  cases ps with
  | nil =>
      rw [List.nil_append, readFactor.eq_def]
      simp [hl]
  | cons p ps =>
      have hnot := isKey_of_expression (h p (by simp)) (w := "not") (by decide)
      rw [List.cons_append, readFactor.eq_def]
      cases ps <;> simp [hnot]

theorem readFactor_comparison {ps : List Part}
    (h : ∀ p ∈ ps, p.isAllowed Lexeme.ofExpression = true) {m : String} {op : ComparisonOperator}
    (hm : operator? m = some op) (qs : List Part) :
    readFactor (ps ++ .leaf (.mark m) :: qs) = .comparison (partsText ps) op (partsText qs) := by
  have hnot : Part.isKey "not" (.leaf (.mark m)) = false := by
    simp only [Part.isKey, Part.key?, beq_eq_false_iff_ne, ne_eq, Option.some.injEq]
    rintro rfl
    simp [operator?] at hm
  exact readFactor_continued h hnot (continued?_operator hm _ qs)

end Condition

namespace Output

variable {α : Type*} [LinearOrder α] (V : Valuation α) {l r : Output}

/-- The text of an operand is not one of the numbers that stand for themselves. -/
theorem Within.ne_number (h : l.Within Lexeme.ofExpression) (hok : l.failure = none) (n : Nat) :
    Lexeme.ofPieces l.pieces ≠ [.number n] := by
  intro htext
  have hreads := h.reads hok
  have hparts := h.parts_allowed hok
  rw [htext] at hreads
  rw [hreads.unique (.leaf rfl)] at hparts
  have hnumber := hparts _ (List.mem_singleton_self _)
  simp [Part.isAllowed, Lexeme.ofExpression, Lexeme.isNumber] at hnumber

theorem factorTruth_compared {op : ComparisonOperator} (hop : op.isDistinctness = false)
    (hl : l.Within Lexeme.ofExpression) (hr : r.Within Lexeme.ofExpression)
    (hok : (l ++ word op.sql ++ r).failure = none) :
    Condition.factorTruth V (l ++ word op.sql ++ r).parts =
      op.truth (V.operand (Lexeme.ofPieces l.pieces)) (V.operand (Lexeme.ofPieces r.pieces)) := by
  have hword : Lexeme.ofWord op.sql = [.mark op.sql] := by
    cases op <;> first | decide | simp [ComparisonOperator.isDistinctness] at hop
  have hread : Condition.operator? op.sql = some op := by
    cases op <;> first | rfl | simp [ComparisonOperator.isDistinctness] at hop
  have hflat : (Lexeme.ofWord op.sql).all Lexeme.ofQuery = true := by rw [hword]; rfl
  obtain ⟨hlop, hrok⟩ := failure_append_eq_none.1 hok
  obtain ⟨hlok, -⟩ := failure_append_eq_none.1 hlop
  have hlq := Layers.reading.query_of_expression hl
  have hopq := Layers.reading.ofQuery.word hflat
  have hparts : (l ++ word op.sql ++ r).parts = l.parts ++ .leaf (.mark op.sql) :: r.parts := by
    rw [parts_append (hlq.append hopq) (Layers.reading.query_of_expression hr) hok,
      parts_append hlq hopq hlop, parts_word hflat, hword]
    simp
  rw [hparts, Condition.factorTruth, Condition.readFactor_comparison (hl.parts_allowed hlok) hread,
    (hl.reads hlok).text, (hr.reads hrok).text, Condition.truth]
  intro m n hm
  exact absurd hm (hl.ne_number hlok m)

end Output

end DialectSql
