import DialectSql.Proofs.RowValue

namespace DialectSql

namespace Truth

variable {R : Truth → Truth → Prop}

/-- A relation between a value that is computed and the one that is meant, kept by conjunction and
disjunction. -/
structure Similarity (R : Truth → Truth → Prop) : Prop where
  refl : ∀ t, R t t
  and : ∀ {s t u v}, R s t → R u v → R (s.and u) (t.and v)
  or : ∀ {s t u v}, R s t → R u v → R (s.or u) (t.or v)

/-- Both values are true, or neither is. -/
def Agrees (s t : Truth) : Prop := s = .true ↔ t = .true

theorem and_eq_true (s t : Truth) : s.and t = .true ↔ s = .true ∧ t = .true := by
  cases s <;> cases t <;> simp [and]

theorem or_eq_true (s t : Truth) : s.or t = .true ↔ s = .true ∨ t = .true := by
  cases s <;> cases t <;> simp [or]

theorem ofBool_eq_true (b : Bool) : ofBool b = .true ↔ b = Bool.true := by
  cases b <;> simp [ofBool]

theorem not_eq_true (t : Truth) : t.not = .true ↔ t = .false := by
  cases t <;> simp [not]

theorem similarity_eq : Similarity Eq :=
  ⟨fun _ => rfl, fun h k => by rw [h, k], fun h k => by rw [h, k]⟩

theorem similarity_agrees : Similarity Agrees where
  refl _ := Iff.rfl
  and h k := by
    rw [Agrees, and_eq_true, and_eq_true]
    exact and_congr h k
  or h k := by
    rw [Agrees, or_eq_true, or_eq_true]
    exact or_congr h k

theorem Similarity.all (h : Similarity R) {ts us : List Truth} (hts : List.Forall₂ R ts us) :
    R (all ts) (all us) := by
  induction hts with
  | nil => exact h.refl _
  | cons ht _ ih => exact h.and ht ih

theorem Similarity.any (h : Similarity R) {ts us : List Truth} (hts : List.Forall₂ R ts us) :
    R (any ts) (any us) := by
  induction hts with
  | nil => exact h.refl _
  | cons ht _ ih => exact h.or ht ih

end Truth

variable {α : Type*} [LinearOrder α]

namespace ComparisonOperator

/-- Distinctness as null tests write it: an equality or an inequality, and tests for one null and
for two. -/
def nullTestsTruth (op : ComparisonOperator) (x y : Option α) : Truth :=
  if op = .distinct then
    (notEqual.truth x y).or (((Truth.ofBool x.isNone).and (.ofBool y.isSome)).or
      ((Truth.ofBool x.isSome).and (.ofBool y.isNone)))
  else (equal.truth x y).or ((Truth.ofBool x.isNone).and (.ofBool y.isNone))

/-- Equality is known of two values that are not null. -/
theorem truth_equal_some (a b : α) : equal.truth (some a) (some b) = .ofBool (a = b) := by
  have hcmp : (cmp a b == .eq) = decide (a = b) := by
    rw [Bool.eq_iff_iff, beq_iff_eq, decide_eq_true_iff, cmp_eq_eq_iff]
  exact congrArg Truth.ofBool hcmp

theorem truth_equal_null {x y : Option α} (h : x = none ∨ y = none) :
    equal.truth x y = .unknown := by
  rcases h with rfl | rfl
  · rfl
  · cases x <;> rfl

/-- Null tests find out where distinctness is true. -/
theorem agrees_nullTests {op : ComparisonOperator} (hop : op.isDistinctness = true)
    (x y : Option α) : Truth.Agrees (op.nullTestsTruth x y) (op.truth x y) := by
  cases op with
  | distinct =>
      have hdistinct : distinct.truth x y = .ofBool (x ≠ y) := rfl
      simp only [Truth.Agrees, nullTestsTruth, if_true, Truth.or_eq_true, Truth.and_eq_true,
        Truth.ofBool_eq_true, truth_notEqual, Truth.not_eq_true, hdistinct]
      cases x <;> cases y <;>
        simp [truth_equal_some, truth_equal_null, Truth.ofBool]
  | notDistinct =>
      have hdistinct : notDistinct.truth x y = .ofBool (x = y) := rfl
      simp only [Truth.Agrees, nullTestsTruth, reduceCtorEq, if_false, Truth.or_eq_true,
        Truth.and_eq_true, Truth.ofBool_eq_true, hdistinct]
      cases x <;> cases y <;> simp [truth_equal_some, truth_equal_null, Truth.ofBool]
  | _ => cases hop

theorem truth_distinct (x y : Option α) : distinct.truth x y = (notDistinct.truth x y).not := by
  by_cases h : x = y <;> simp [truth, Truth.ofBool, Truth.not, h]

end ComparisonOperator

theorem Row.truth_distinct (xs ys : List (Option α)) :
    truth .distinct xs ys = .any (List.zipWith (ComparisonOperator.truth .distinct) xs ys) := by
  have hnot : ComparisonOperator.truth .distinct = fun x y : Option α =>
      (ComparisonOperator.truth .notDistinct x y).not :=
    funext₂ ComparisonOperator.truth_distinct
  rw [hnot, ← List.map_zipWith, ← Truth.not_all]
  rfl

namespace Output

open Layers (reading)

variable (V : Valuation α) {l r : Output}

theorem factorTruth_distinctness {op : ComparisonOperator} (hop : op.isDistinctness = true)
    (hl : l.Within Lexeme.ofExpression) (hr : r.Within Lexeme.ofExpression)
    (hok : (l ++ word op.sql ++ r).failure = none) :
    Condition.factorTruth V (l ++ word op.sql ++ r).parts = op.truth (V.of l) (V.of r) := by
  have hflat : (Lexeme.ofWord op.sql).all Lexeme.ofQuery = true := by cases op <;> decide
  obtain ⟨hlop, hrok⟩ := failure_append_eq_none.1 hok
  obtain ⟨hlok, -⟩ := failure_append_eq_none.1 hlop
  have hlq := reading.query_of_expression hl
  have hopq := reading.ofQuery.word hflat
  have hparts : (l ++ word op.sql ++ r).parts =
      l.parts ++ ((Lexeme.ofWord op.sql).map .leaf ++ r.parts) := by
    rw [parts_append (hlq.append hopq) (reading.query_of_expression hr) hok,
      parts_append hlq hopq hlop, parts_word hflat, List.append_assoc]
  have hread : Condition.readFactor (l.parts ++ ((Lexeme.ofWord op.sql).map .leaf ++ r.parts)) =
      .comparison (partsText l.parts) op (partsText r.parts) := by
    cases op with
    | distinct =>
        have hword : Lexeme.ofWord ComparisonOperator.distinct.sql =
            [.word "is", .word "distinct", .word "from"] := by decide
        rw [hword]
        exact Condition.readFactor_continued (hl.parts_allowed hlok) rfl rfl
    | notDistinct =>
        have hword : Lexeme.ofWord ComparisonOperator.notDistinct.sql =
            [.word "is", .word "not", .word "distinct", .word "from"] := by decide
        rw [hword]
        exact Condition.readFactor_continued (hl.parts_allowed hlok) rfl rfl
    | _ => cases hop
  rw [hparts, Condition.factorTruth, hread, (hl.reads hlok).text, (hr.reads hrok).text,
    Condition.truth]
  · rfl
  · intro m n hm
    exact absurd hm (hl.ne_number hlok m)

theorem factorTruth_nullTest {e : Operand} (negated : Bool) (he : e.Holds reading)
    (hok : (Comparison.nullTest e negated).failure = none) :
    Condition.factorTruth V (Comparison.nullTest e negated).parts =
      .ofBool ((V.of e.output).isNone != negated) := by
  have he : e.output.Within Lexeme.ofExpression := reading.operand he
  have heok := (failure_append_eq_none.1 hok).1
  have hnull : Lexeme.ofWord " is null" = [.word "is", .word "null"] := by decide
  have hnotNull : Lexeme.ofWord " is not null" = [.word "is", .word "not", .word "null"] := by decide
  have hflat (negated : Bool) :
      (Lexeme.ofWord (if negated then " is not null" else " is null")).all Lexeme.ofQuery = true := by
    cases negated <;> decide
  have hread : Condition.readFactor (e.output.parts ++
      (Lexeme.ofWord (if negated then " is not null" else " is null")).map .leaf) =
      .nullTest (partsText e.output.parts) negated := by
    cases negated with
    | false =>
        rw [if_neg (by simp), hnull]
        exact Condition.readFactor_continued (he.parts_allowed heok) rfl rfl
    | true =>
        rw [if_pos rfl, hnotNull]
        exact Condition.readFactor_continued (he.parts_allowed heok) rfl rfl
  rw [Comparison.nullTest, parts_append (reading.query_of_expression he)
    (reading.ofQuery.word (hflat negated)) hok, parts_word (hflat negated), Condition.factorTruth,
    hread, (he.reads heok).text]
  rfl

end Output

namespace Comparison

variable (V : Valuation α) (d : Dialect) {l r : Operand} {op : ComparisonOperator}

theorem partsTruth_nullTest {e : Operand} (negated : Bool) (he : e.Holds reading)
    (hok : (nullTest e negated).failure = none) :
    Condition.partsTruth V (nullTest e negated).parts =
      .ofBool ((V.of e.output).isNone != negated) := by
  have htest : (nullTest e negated).Within Lexeme.ofTest := reading.nullTest he negated
  rw [Condition.partsTruth_factor V (htest.isFactor hok), Output.factorTruth_nullTest V negated he hok]

/-- Null tests of both sides, joined by `and`. -/
theorem partsTruth_nullTests (a b : Bool) (hl : l.Holds reading) (hr : r.Holds reading)
    (hok : (nullTest l a ++ .word " and " ++ nullTest r b).failure = none) :
    Condition.partsTruth V (nullTest l a ++ .word " and " ++ nullTest r b).parts =
      (Truth.ofBool ((V.of l.output).isNone != a)).and (.ofBool ((V.of r.output).isNone != b)) := by
  obtain ⟨hleft, hrok⟩ := Output.failure_append_eq_none.1 hok
  have hlok := (Output.failure_append_eq_none.1 hleft).1
  rw [Output.partsTruth_both V (reading.nullTest hl a) (reading.nullTest hr b) hok,
    partsTruth_nullTest V a hl hlok, partsTruth_nullTest V b hr hrok]

theorem partsTruth_distinctByNullTests (hop : op.isDistinctness = true) (hl : l.Holds reading)
    (hr : r.Holds reading) (hok : (distinctByNullTests l op r).failure = none) :
    Condition.partsTruth V (distinctByNullTests l op r).parts =
      op.nullTestsTruth (V.of l.output) (V.of r.output) := by
  have hplain (op : ComparisonOperator) : (plain l op r).Within Lexeme.ofCondition :=
    reading.plainCondition hl hr op
  have hboth (a b : Bool) :
      (nullTest l a ++ .word " and " ++ nullTest r b).Within Lexeme.ofCondition :=
    reading.ofCondition.append (reading.ofCondition.append
      (reading.condition_of_test (reading.nullTest hl a)) (reading.ofCondition.fixed " and " rfl))
      (reading.condition_of_test (reading.nullTest hr b))
  have hor := reading.ofCondition.fixed " or " rfl
  cases op with
  | distinct =>
      have hshape : distinctByNullTests l .distinct r = (plain l .notEqual r ++ .word " or " ++
          (nullTest l false ++ .word " and " ++ nullTest r true ++ .word " or " ++
            (nullTest l true ++ .word " and " ++ nullTest r false))).parenthesized := by
        simp only [distinctByNullTests, if_true, Output.append_assoc]
      rw [hshape] at hok ⊢
      rw [Output.failure_parenthesized] at hok
      obtain ⟨hfirst, hrest⟩ := Output.failure_append_eq_none.1 hok
      obtain ⟨hsecond, hthird⟩ := Output.failure_append_eq_none.1 hrest
      have hrestWithin := ((hboth false true).append hor).append (hboth true false)
      rw [Output.partsTruth_parenthesized V (((hplain .notEqual).append hor).append hrestWithin) hok,
        Output.partsTruth_either V (reading.query_of_condition (hplain .notEqual))
          (reading.query_of_condition hrestWithin) hok,
        Output.partsTruth_either V (reading.query_of_condition (hboth false true))
          (reading.query_of_condition (hboth true false)) hrest,
        partsTruth_plain V rfl hl hr (Output.failure_append_eq_none.1 hfirst).1,
        partsTruth_nullTests V false true hl hr (Output.failure_append_eq_none.1 hsecond).1,
        partsTruth_nullTests V true false hl hr hthird]
      simp [ComparisonOperator.nullTestsTruth]
  | notDistinct =>
      have hshape : distinctByNullTests l .notDistinct r = (plain l .equal r ++ .word " or " ++
          (nullTest l false ++ .word " and " ++ nullTest r false)).parenthesized := by
        simp only [distinctByNullTests, reduceCtorEq, if_false, Output.append_assoc]
      rw [hshape] at hok ⊢
      rw [Output.failure_parenthesized] at hok
      obtain ⟨hfirst, hsecond⟩ := Output.failure_append_eq_none.1 hok
      rw [Output.partsTruth_parenthesized V (((hplain .equal).append hor).append (hboth false false))
          hok, Output.partsTruth_either V (reading.query_of_condition (hplain .equal))
          (reading.query_of_condition (hboth false false)) hok,
        partsTruth_plain V rfl hl hr (Output.failure_append_eq_none.1 hfirst).1,
        partsTruth_nullTests V false false hl hr hsecond]
      simp [ComparisonOperator.nullTestsTruth]
  | _ => cases hop

/-- The rules for comparisons matter for distinctness and for two tuples. -/
theorem render_standard (hr : r.isTuple = false)
    (hrule : op.isDistinctness = true → d.strategies.comparison ≠ .intersect) :
    render d l op r = standard d l op r := by
  rw [render.eq_def]
  split
  · rfl
  · rename_i hintersect
    cases hop : op.isDistinctness with
    | true => exact absurd hintersect (hrule hop)
    | false => rw [intersect, hop, if_neg (by simp)]
  · split
    · cases hr
    · rfl

/-- Two values that are no tuples are compared as they stand or by null tests. -/
theorem render_distinctness (hrule : d.strategies.comparison ≠ .intersect)
    (hop : op.isDistinctness = true) (hl : l.isTuple = false) (hr : r.isTuple = false) :
    render d l op r = plain l op r ∨
      d.capabilities.distinctFrom = .emulated ∧ render d l op r = distinctByNullTests l op r := by
  rw [render_standard d hr fun _ => hrule, standard.eq_def]
  cases l with
  | tuple ls => cases hl
  | scalar | subquery | quantified =>
      cases r with
      | tuple rs => cases hr
      | subquery | quantified => exact .inl rfl
      | scalar =>
          simp only [hop, Bool.true_and, beq_iff_eq]
          split
          · exact .inr ⟨‹_›, rfl⟩
          · exact .inl rfl

theorem partsTruth_plainDistinctness (hop : op.isDistinctness = true) (hl : l.Holds reading)
    (hr : r.Holds reading) (hok : (plain l op r).failure = none) :
    Condition.partsTruth V (plain l op r).parts = op.truth (V.of l.output) (V.of r.output) := by
  have htest : (plain l op r).Within Lexeme.ofTest := reading.plain hl hr op
  rw [Condition.partsTruth_factor V (htest.isFactor hok)]
  exact Output.factorTruth_distinctness V hop (reading.operand hl) (reading.operand hr) hok

/-- Distinctness of two tuples is decided by one of their elements, or by all. -/
theorem partsTruth_distinctTuples {ls rs : List Operand} (hop : op.isDistinctness = true)
    (bounded : Bool) (hl : operandsHold reading ls) (hr : operandsHold reading rs)
    (hok : (tuples d ls rs op bounded).failure = none) :
    ls.length = rs.length ∧ (∀ o ∈ renderEach d op ls rs, o.failure = none) ∧
      Condition.partsTruth V (tuples d ls rs op bounded).parts =
        (if op = .distinct then Truth.any else Truth.all)
          ((renderEach d op ls rs).map fun o => Condition.partsTruth V o.parts) := by
  obtain ⟨hlen, hne⟩ := arity_of_tuples hok
  rw [tuples_eq d op bounded hlen hne] at hok ⊢
  have heach : ∀ o ∈ renderEach d op ls rs, o.Within Lexeme.ofTest :=
    reading.eachComparison d op ls rs hl hr
  have hsome : renderEach d op ls rs ≠ [] := by
    cases ls with
    | nil => exact absurd rfl hne
    | cons l ls =>
        cases rs with
        | nil => cases hlen
        | cons r rs => simp [renderEach]
  refine ⟨hlen, ?_⟩
  cases op with
  | distinct =>
      rw [elementwise, Output.failure_parenthesized, Output.failure_joined_eq_none] at hok
      exact ⟨hok, Output.partsTruth_someOf V hsome heach hok⟩
  | notDistinct =>
      rw [elementwise, Output.failure_parenthesized, Output.failure_joined_eq_none] at hok
      exact ⟨hok, Output.partsTruth_allOf V hsome heach hok⟩
  | _ => cases hop

section

variable {R : Truth → Truth → Prop} (hR : Truth.Similarity R) {ls rs : List Operand}

include hR

/-- Distinctness of two values is rendered with a value that is similar to it, if null tests are. -/
theorem similar_render (hnull : d.capabilities.distinctFrom = .emulated →
      ∀ x y : Option α, R (op.nullTestsTruth x y) (op.truth x y))
    (hrule : d.strategies.comparison ≠ .intersect) (hop : op.isDistinctness = true)
    (hl : l.Holds reading) (hr : r.Holds reading) (hlv : l.isTuple = false) (hrv : r.isTuple = false)
    (hok : (render d l op r).failure = none) :
    R (Condition.partsTruth V (render d l op r).parts)
      (op.truth (V.of l.output) (V.of r.output)) := by
  rcases render_distinctness d hrule hop hlv hrv with hplain | ⟨hemulated, htests⟩
  · rw [hplain] at hok ⊢
    rw [partsTruth_plainDistinctness V hop hl hr hok]
    exact hR.refl _
  · rw [htests] at hok ⊢
    rw [partsTruth_distinctByNullTests V hop hl hr hok]
    exact hnull hemulated _ _

theorem similar_renderEach (hnull : d.capabilities.distinctFrom = .emulated →
      ∀ x y : Option α, R (op.nullTestsTruth x y) (op.truth x y))
    (hrule : d.strategies.comparison ≠ .intersect) (hop : op.isDistinctness = true)
    (hl : operandsHold reading ls) (hr : operandsHold reading rs)
    (hlv : ∀ l ∈ ls, l.isTuple = false) (hrv : ∀ r ∈ rs, r.isTuple = false)
    (hok : ∀ o ∈ renderEach d op ls rs, o.failure = none) :
    List.Forall₂ R ((renderEach d op ls rs).map fun o => Condition.partsTruth V o.parts)
      (List.zipWith op.truth ((operandOutputs ls).map V.of) ((operandOutputs rs).map V.of)) := by
  induction ls generalizing rs with
  | nil => simp [renderEach, operandOutputs]
  | cons l ls ih =>
      cases rs with
      | nil => simp [renderEach, operandOutputs]
      | cons r rs =>
          simp only [renderEach, List.forall_mem_cons] at hok hlv hrv
          have hfirst := similar_render V d hR hnull hrule hop hl.1 hr.1 hlv.1 hrv.1 hok.1
          have hrest := ih hl.2 hr.2 hlv.2 hrv.2 hok.2
          rw [renderEach]
          exact .cons hfirst hrest

theorem similar_distinctTuples (hnull : d.capabilities.distinctFrom = .emulated →
      ∀ x y : Option α, R (op.nullTestsTruth x y) (op.truth x y))
    (hrule : d.strategies.comparison ≠ .intersect) (hop : op.isDistinctness = true) (bounded : Bool)
    (hl : operandsHold reading ls) (hr : operandsHold reading rs)
    (hlv : ∀ l ∈ ls, l.isTuple = false) (hrv : ∀ r ∈ rs, r.isTuple = false)
    (hok : (tuples d ls rs op bounded).failure = none) :
    R (Condition.partsTruth V (tuples d ls rs op bounded).parts)
      (Row.truth op ((operandOutputs ls).map V.of) ((operandOutputs rs).map V.of)) := by
  obtain ⟨-, heach, hvalue⟩ := partsTruth_distinctTuples V d hop bounded hl hr hok
  have hvalues := similar_renderEach V d hR hnull hrule hop hl hr hlv hrv heach
  rw [hvalue]
  cases op with
  | distinct =>
      rw [if_pos rfl, Row.truth_distinct]
      exact hR.any hvalues
  | notDistinct => exact hR.all hvalues
  | _ => cases hop

end

end Comparison

end DialectSql
