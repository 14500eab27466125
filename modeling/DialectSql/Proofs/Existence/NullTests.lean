import DialectSql.Proofs.Existence.Emulation

namespace DialectSql

open Output.Layers (reading)

def Operand.isScalar : Operand → Bool
  | .scalar _ => true
  | _ => false

namespace Row

variable {α : Type*}

/-- At one place the rows have different values, of which none is null. -/
def Differ (xs ys : List (Option α)) : Prop :=
  ∃ p ∈ xs.zip ys, p.1 ≠ none ∧ p.2 ≠ none ∧ p.1 ≠ p.2

theorem differ_cons (x y : Option α) (xs ys : List (Option α)) :
    Differ (x :: xs) (y :: ys) ↔ (x ≠ none ∧ y ≠ none ∧ x ≠ y) ∨ Differ xs ys := by
  simp [Differ]

theorem differ_self (xs : List (Option α)) : ¬Differ xs xs := by
  induction xs with
  | nil => simp [Differ]
  | cons x xs ih => simp [differ_cons, ih]

theorem differ_comm (xs ys : List (Option α)) : Differ xs ys ↔ Differ ys xs := by
  induction xs generalizing ys with
  | nil => simp [Differ]
  | cons x xs ih =>
      cases ys with
      | nil => simp [Differ]
      | cons y ys =>
          rw [differ_cons, differ_cons, ih, ne_comm (a := x) (b := y), and_left_comm]

variable [DecidableEq α]

instance (xs ys : List (Option α)) : Decidable (Differ xs ys) :=
  inferInstanceAs (Decidable (∃ p ∈ xs.zip ys, _))

/-- What null tests find out of distinctness. That rows are the same stays open where they have a
null, and that they are not the same where they differ by nulls only. -/
def nullTestsTruth (op : ComparisonOperator) (xs ys : List (Option α)) : Truth :=
  if op = .distinct then
    if xs ≠ ys then .true else if none ∈ xs then .unknown else .false
  else
    if xs = ys then .true else if Differ xs ys then .false else .unknown

theorem nullTestsTruth_comm (op : ComparisonOperator) (xs ys : List (Option α)) :
    nullTestsTruth op xs ys = nullTestsTruth op ys xs := by
  by_cases h : xs = ys
  · rw [h]
  · simp only [nullTestsTruth, h, Ne.symm h, differ_comm xs ys, ne_eq, not_false_eq_true, if_true,
      if_false]

end Row

variable {α : Type*} [LinearOrder α]

namespace ComparisonOperator

theorem nullTestsTruth_distinct (x y : Option α) :
    distinct.nullTestsTruth x y =
      if x ≠ y then .true else if x = none then .unknown else .false := by
  cases x with
  | none => cases y <;> rfl
  | some a =>
      cases y with
      | none => rfl
      | some b =>
          rw [nullTestsTruth, if_pos rfl, truth_notEqual, truth_equal_some]
          by_cases h : a = b <;> simp [h, Truth.ofBool, Truth.not, Truth.and, Truth.or]

theorem nullTestsTruth_notDistinct (x y : Option α) :
    notDistinct.nullTestsTruth x y =
      if x = y then .true else if x ≠ none ∧ y ≠ none then .false else .unknown := by
  cases x with
  | none => cases y <;> rfl
  | some a =>
      cases y with
      | none => rfl
      | some b =>
          rw [nullTestsTruth, if_neg (by simp), truth_equal_some]
          by_cases h : a = b <;> simp [h, Truth.ofBool, Truth.and, Truth.or]

end ComparisonOperator

namespace Row

theorem any_nullTests {xs ys : List (Option α)} (h : xs.length = ys.length) :
    Truth.any (List.zipWith (ComparisonOperator.nullTestsTruth .distinct) xs ys) =
      nullTestsTruth .distinct xs ys := by
  induction xs generalizing ys with
  | nil =>
      obtain rfl := List.length_eq_zero_iff.1 h.symm
      rfl
  | cons x xs ih =>
      cases ys with
      | nil => cases h
      | cons y ys =>
          rw [List.zipWith_cons_cons, Truth.any_cons, ih (by simpa using h),
            ComparisonOperator.nullTestsTruth_distinct]
          by_cases hx : x = y
          · subst hx
            by_cases hxs : xs = ys
            · cases x <;> by_cases hnull : none ∈ xs <;>
                simp [nullTestsTruth, hxs, hxs ▸ hnull, Truth.or]
            · cases x <;> simp [nullTestsTruth, hxs, Truth.or]
          · simp [nullTestsTruth, hx, Truth.or]

theorem all_nullTests {xs ys : List (Option α)} (h : xs.length = ys.length) :
    Truth.all (List.zipWith (ComparisonOperator.nullTestsTruth .notDistinct) xs ys) =
      nullTestsTruth .notDistinct xs ys := by
  induction xs generalizing ys with
  | nil =>
      obtain rfl := List.length_eq_zero_iff.1 h.symm
      rfl
  | cons x xs ih =>
      cases ys with
      | nil => cases h
      | cons y ys =>
          rw [List.zipWith_cons_cons, Truth.all_cons, ih (by simpa using h),
            ComparisonOperator.nullTestsTruth_notDistinct]
          by_cases hx : x = y
          · subst hx
            simp [nullTestsTruth, differ_cons]
          · by_cases hvalues : x ≠ none ∧ y ≠ none
            · simp [nullTestsTruth, differ_cons, hx, hvalues, Truth.and]
            · rw [if_neg hx, if_neg hvalues]
              by_cases hxs : xs = ys
              · subst hxs
                simp_all [nullTestsTruth, differ_cons, differ_self]
              · by_cases hdiffer : Differ xs ys <;>
                  simp_all [nullTestsTruth, differ_cons, Truth.and]

end Row

namespace Comparison

variable (V : Valuation α) (d : Dialect) {l r : Operand} {op : ComparisonOperator}

theorem render_nullTests (hemulated : d.capabilities.distinctFrom = .emulated)
    (hrule : d.strategies.comparison ≠ .intersect) (hop : op.isDistinctness = true)
    (hl : l.isTuple = false) (hr : r.isScalar = true) :
    render d l op r = distinctByNullTests l op r := by
  cases r with
  | tuple | subquery | quantified => cases hr
  | scalar =>
      rw [render_standard d rfl fun _ => hrule, standard.eq_def]
      cases l with
      | tuple => cases hl
      | scalar | subquery | quantified => simp [hop, hemulated]

theorem failure_distinctByNullTests (hl : l.output.failure = none) (hr : r.output.failure = none) :
    (distinctByNullTests l op r).failure = none := by
  rw [distinctByNullTests, Output.failure_parenthesized]
  split <;> simp [failure_plain, nullTest, hl, hr]

variable {ls rs : List Operand}

theorem length_operandOutputs (es : List Operand) : (operandOutputs es).length = es.length := by
  induction es with
  | nil => rfl
  | cons e es ih => rw [operandOutputs, List.length_cons, ih, List.length_cons]

theorem failure_nullTestsEach (hl : ∀ o ∈ operandOutputs ls, o.failure = none)
    (hr : ∀ o ∈ operandOutputs rs, o.failure = none) :
    ∀ o ∈ List.zipWith (distinctByNullTests · op ·) ls rs, o.failure = none := by
  induction ls generalizing rs with
  | nil => simp
  | cons l ls ih =>
      cases rs with
      | nil => simp
      | cons r rs =>
          simp only [operandOutputs, List.forall_mem_cons] at hl hr
          simp only [List.zipWith_cons_cons, List.forall_mem_cons]
          exact ⟨failure_distinctByNullTests hl.1 hr.1, ih hl.2 hr.2⟩

theorem renderEach_nullTests (hemulated : d.capabilities.distinctFrom = .emulated)
    (hrule : d.strategies.comparison ≠ .intersect) (hop : op.isDistinctness = true)
    (hl : ∀ l ∈ ls, l.isTuple = false) (hr : ∀ r ∈ rs, r.isScalar = true) :
    renderEach d op ls rs = List.zipWith (distinctByNullTests · op ·) ls rs := by
  induction ls generalizing rs with
  | nil => simp [renderEach]
  | cons l ls ih =>
      cases rs with
      | nil => simp [renderEach]
      | cons r rs =>
          rw [List.forall_mem_cons] at hl hr
          rw [renderEach, render_nullTests d hemulated hrule hop hl.1 hr.1, ih hl.2 hr.2]
          rfl

theorem map_partsTruth_nullTests (hop : op.isDistinctness = true) (hl : operandsHold reading ls)
    (hr : operandsHold reading rs)
    (hok : ∀ o ∈ List.zipWith (distinctByNullTests · op ·) ls rs, o.failure = none) :
    (List.zipWith (distinctByNullTests · op ·) ls rs).map
        (fun o => Condition.partsTruth V o.parts) =
      List.zipWith op.nullTestsTruth ((operandOutputs ls).map V.of)
        ((operandOutputs rs).map V.of) := by
  induction ls generalizing rs with
  | nil => simp [operandOutputs]
  | cons l ls ih =>
      cases rs with
      | nil => simp [operandOutputs]
      | cons r rs =>
          simp only [List.zipWith_cons_cons, List.forall_mem_cons] at hok
          have hfirst := partsTruth_distinctByNullTests V hop hl.1 hr.1 hok.1
          have hrest := ih hl.2 hr.2 hok.2
          simp [operandOutputs, hfirst, hrest]

/-- Two rows by null tests of their values. -/
theorem partsTruth_testedTuples (hemulated : d.capabilities.distinctFrom = .emulated)
    (hrule : d.strategies.comparison ≠ .intersect) (hop : op.isDistinctness = true) (bounded : Bool)
    (hl : operandsHold reading ls) (hr : operandsHold reading rs)
    (hlv : ∀ l ∈ ls, l.isTuple = false) (hrv : ∀ r ∈ rs, r.isScalar = true)
    (hok : (tuples d ls rs op bounded).failure = none) :
    Condition.partsTruth V (tuples d ls rs op bounded).parts =
      Row.nullTestsTruth op ((operandOutputs ls).map V.of) ((operandOutputs rs).map V.of) := by
  obtain ⟨hlen, heach, hvalue⟩ := partsTruth_distinctTuples V d hop bounded hl hr hok
  have hlength : ((operandOutputs ls).map V.of).length = ((operandOutputs rs).map V.of).length := by
    rw [List.length_map, List.length_map, length_operandOutputs, length_operandOutputs, hlen]
  rw [renderEach_nullTests d hemulated hrule hop hlv hrv] at heach hvalue
  rw [hvalue, map_partsTruth_nullTests V hop hl hr heach]
  cases op with
  | distinct => exact Row.any_nullTests hlength
  | notDistinct => exact Row.all_nullTests hlength
  | _ => cases hop

theorem failure_testedTuples (hemulated : d.capabilities.distinctFrom = .emulated)
    (hrule : d.strategies.comparison ≠ .intersect) (hop : op.isDistinctness = true) (bounded : Bool)
    (hne : ls ≠ []) (hlen : ls.length = rs.length) (hlv : ∀ l ∈ ls, l.isTuple = false)
    (hrv : ∀ r ∈ rs, r.isScalar = true) (hl : ∀ o ∈ operandOutputs ls, o.failure = none)
    (hr : ∀ o ∈ operandOutputs rs, o.failure = none) :
    (tuples d ls rs op bounded).failure = none := by
  have heach : ∀ o ∈ renderEach d op ls rs, o.failure = none := by
    rw [renderEach_nullTests d hemulated hrule hop hlv hrv]
    exact failure_nullTestsEach hl hr
  have hjoined (separator : String) :
      (Output.joined separator (renderEach d op ls rs)).parenthesized.failure = none := by
    rw [Output.failure_parenthesized, Output.failure_joined_eq_none]
    exact heach
  rw [tuples_eq d op bounded hlen hne]
  cases op with
  | distinct => exact hjoined " or "
  | notDistinct => exact hjoined " and "
  | _ => cases hop

end Comparison

namespace Render

variable (d : Dialect)

theorem isScalar_operand (e : Expr) : (operand d e).isScalar = e.isScalar := by
  cases e with
  | «case» branches otherwise => cases otherwise <;> rfl
  | _ => rfl

theorem isScalar_operands {es : List Expr} (h : ∀ e ∈ es, e.isScalar = true) :
    ∀ e ∈ operands d es, e.isScalar = true := by
  intro e he
  obtain ⟨x, hx, rfl⟩ := mem_operands.1 he
  rw [isScalar_operand, h x hx]

/-- A negation has the opposite value. -/
theorem value?_negated (V : Valuation α) {p : Predicate} {t : Truth}
    (h : (predicate d p).value? V = some t) : (predicate d (.negated p)).value? V = some t.not := by
  have hok : (predicate d p).failure = none := by
    by_contra hfailure
    rw [Output.value?, if_neg hfailure] at h
    cases h
  rw [Output.value?_eq V (predicate_within d p) hok, Option.some_inj] at h
  have hnot : (predicate d (.negated p)).failure = none := by simpa [predicate] using hok
  rw [Output.value?_eq V (predicate_within d _) hnot, partsTruth_predicate d V _ hnot,
    Predicate.truth, ← partsTruth_predicate d V p hok, h]

end Render

namespace RowValue

variable (V : Valuation α) {d : Dialect} {op : ComparisonOperator} {l r : Expr} {ls rs : List Expr}
  (hemulated : d.capabilities.distinctFrom = .emulated)
  (hrule : d.strategies.comparison ≠ .intersect) (hop : op.isDistinctness = true)

include hemulated hrule hop

theorem value?_testedValues (hl : l.isTuple = false) (hr : r.isScalar = true)
    (h : Comparable d [l] [r]) :
    (Render.predicate d (.comparison l op r)).value? V =
      some (Row.nullTestsTruth op (V.row d [l]) (V.row d [r])) := by
  have hshape : Render.predicate d (.comparison l op r) =
      Comparison.distinctByNullTests (Render.operand d l) op (Render.operand d r) := by
    rw [Render.predicate]
    exact Comparison.render_nullTests d hemulated hrule hop ((isTuple_operand l).trans hl)
      ((Render.isScalar_operand d r).trans hr)
  have hok : (Comparison.distinctByNullTests (Render.operand d l) op
      (Render.operand d r)).failure = none :=
    Comparison.failure_distinctByNullTests (h.left l (by simp)) (h.right r (by simp))
  have hwithin := Render.predicate_within d (.comparison l op r)
  rw [hshape] at hwithin ⊢
  rw [Output.value?_eq V hwithin hok, Comparison.partsTruth_distinctByNullTests V hop
    (reading.operandHolds d l) (reading.operandHolds d r) hok]
  cases op with
  | distinct =>
      have hany := @Row.any_nullTests α _ (V.row d [l]) (V.row d [r]) rfl
      rw [← hany]
      exact congrArg some (Truth.or_false _).symm
  | notDistinct =>
      have hall := @Row.all_nullTests α _ (V.row d [l]) (V.row d [r]) rfl
      rw [← hall]
      exact congrArg some (Truth.and_true _).symm
  | _ => cases hop

omit [LinearOrder α] in
theorem failure_testedRows (bounded : Bool) (hl : ∀ e ∈ ls, e.isTuple = false)
    (hr : ∀ e ∈ rs, e.isScalar = true) (h : Comparable d ls rs) :
    (tuples d ls rs op bounded).failure = none := by
  apply Comparison.failure_testedTuples d hemulated hrule hop bounded
  · rw [← List.length_pos_iff, Render.length_operands]
    exact List.length_pos_iff.2 h.nonempty
  · rw [Render.length_operands, Render.length_operands, h.arity]
  · exact Emulation.isTuple_operands hl
  · exact Render.isScalar_operands d hr
  · rw [Render.operandOutputs_operands]
    simpa using h.left
  · rw [Render.operandOutputs_operands]
    simpa using h.right

theorem value?_testedTuples (hl : ∀ e ∈ ls, e.isTuple = false) (hr : ∀ e ∈ rs, e.isScalar = true)
    (h : Comparable d ls rs) :
    (Render.predicate d (.comparison (.tuple ls) op (.tuple rs))).value? V =
      some (Row.nullTestsTruth op (V.row d ls) (V.row d rs)) := by
  have hlv := Emulation.isTuple_operands (d := d) hl
  have hrv := Render.isScalar_operands d hr
  have hlen : (Render.operands d ls).length = (Render.operands d rs).length := by
    rw [Render.length_operands, Render.length_operands, h.arity]
  obtain ⟨bounded, hshape⟩ : ∃ bounded : Bool,
      Render.predicate d (.comparison (.tuple ls) op (.tuple rs)) =
        tuples d ls rs op bounded := by
    have hstandard : Comparison.standard d (.tuple (Render.operands d ls)) op
        (.tuple (Render.operands d rs)) = tuples d ls rs op true := by
      rw [Comparison.standard.eq_def]
      simp [hlen, hop, hemulated]
    rw [Render.predicate, Render.operand, Render.operand, Comparison.render.eq_def]
    split
    · exact ⟨true, hstandard⟩
    · exact absurd ‹_› hrule
    · exact ⟨false, rfl⟩
  have hok := failure_testedRows hemulated hrule hop bounded hl hr h
  rw [hshape, Output.value?_eq V (tuples_within ls rs op bounded) hok,
    Comparison.partsTruth_testedTuples V d hemulated hrule hop bounded (reading.operandsHolds d ls)
      (reading.operandsHolds d rs) hlv hrv hok, Emulation.row_operands, Emulation.row_operands]

theorem value?_tested (hshape : l.isTuple = r.isTuple) (hl : ∀ e ∈ l.elements, e.isTuple = false)
    (hr : ∀ e ∈ r.elements, e.isScalar = true) (h : Comparable d l.elements r.elements) :
    (Render.predicate d (.comparison l op r)).value? V =
      some (Row.nullTestsTruth op (V.row d l.elements) (V.row d r.elements)) := by
  cases htuple : r.isTuple with
  | true =>
      obtain ⟨rs, rfl⟩ := Expr.eq_tuple htuple
      obtain ⟨ls, rfl⟩ := Expr.eq_tuple (hshape.trans htuple)
      exact value?_testedTuples V hemulated hrule hop hl hr h
  | false =>
      rw [Expr.elements_of_value htuple] at hr h ⊢
      rw [Expr.elements_of_value (hshape.trans htuple)] at hl h ⊢
      exact value?_testedValues V hemulated hrule hop (hl l (by simp)) (hr r (by simp)) h

end RowValue

namespace Emulation

variable {d : Dialect} {op : ComparisonOperator} {ls : List Expr} {s : QuerySpec} {o : Output}
  (hemulated : d.capabilities.distinctFrom = .emulated)
  (hrule : d.strategies.comparison ≠ .intersect) (hop : op.isDistinctness = true)
  (hvalues : OfValues ls s) (hscalar : ∀ e ∈ ls, e.isScalar = true)
  (hrows : Comparison.writesRows d = false)

include hemulated hrule hop hvalues hscalar hrows

theorem factorTruth_testedRow (V : Valuation α)
    (hok : (Comparison.selectTuple d (Render.operands d s.columns) (Render.operands d ls)
      op.invert).failure = none) :
    V.factorTruth (Comparison.selectTuple d (Render.operands d s.columns) (Render.operands d ls)
      op.invert).parts = Row.nullTestsTruth op (V.row d ls) (V.row d s.columns) := by
  have hinvert : op.invert = op := invert_of_isDistinctness hop
  obtain ⟨bounded, htuples⟩ := Comparison.selectTuple_of_values hrows (Render.operands d s.columns)
    (Render.operands d ls) op.invert
  rw [htuples, hinvert] at hok ⊢
  rw [Comparison.factorTruth_tuples V d op bounded (reading.operandsHolds d _)
    (reading.operandsHolds d ls) hok, Comparison.partsTruth_testedTuples V d hemulated hrule hop
    bounded (reading.operandsHolds d _) (reading.operandsHolds d ls)
    (isTuple_operands hvalues.right) (Render.isScalar_operands d hscalar) hok, row_operands,
    row_operands, Row.nullTestsTruth_comm]

/-- Distinctness from all rows of a query, or from none, is refuted by the rows for which the null
tests find that it is false. -/
theorem existence?_tested (h : Emulation d ls s op .all false o) (hok : o.failure = none)
    (hs : s.restriction ≠ some (.junction .disjunction [])) (T : Tables α)
    {outer : List (Option α)} (houter : ∀ V ∈ T (s.tablesText d), V.row d ls = outer) :
    ∃ found, o.existence? T = some found ∧ (found = true ↔ ∀ V ∈ T (s.tablesText d),
      s.Keeps d V → Row.nullTestsTruth op outer (V.row d s.columns) ≠ .false) := by
  obtain ⟨hrestriction, hmatch⟩ := h.failure_parts hok
  refine ⟨_, h.existence?_eq hok T, ?_⟩
  have hall : (Quantifier.all == .all) = true := rfl
  rw [hall, Bool.false_xor, Bool.true_xor, Bool.not_eq_true', List.any_eq_false]
  refine forall₂_congr fun V hV => ?_
  rw [Comparison.admits, beq_iff_eq, Truth.and_eq_true, ← beq_iff_eq,
    movedRestriction_truth V hrestriction, QuerySpec.filters_iff V hs, if_pos rfl, Truth.not_eq_true,
    factorTruth_testedRow hemulated hrule hop hvalues hscalar hrows V hmatch, houter V hV, not_and]

end Emulation

/-- Distinctness that is written with null tests has the value of the tests, and its negation the
opposite. A comparison with all rows of a query is refuted by the rows of which the tests say that
they are false, and not by those that the tests leave open. -/
theorem nullTests_truth (V : Valuation α) {d : Dialect}
    (hemulated : d.capabilities.distinctFrom = .emulated)
    (hrule : d.strategies.comparison ≠ .intersect) {op : ComparisonOperator}
    (hop : op.isDistinctness = true) :
    (∀ l r : Expr, l.isTuple = r.isTuple → (∀ e ∈ l.elements, e.isTuple = false) →
      (∀ e ∈ r.elements, e.isScalar = true) → Comparable d l.elements r.elements →
      (Render.predicate d (.comparison l op r)).value? V =
          some (Row.nullTestsTruth op (V.row d l.elements) (V.row d r.elements)) ∧
        (Render.predicate d (.negated (.comparison l op r))).value? V =
          some (Row.nullTestsTruth op (V.row d l.elements) (V.row d r.elements)).not) ∧
    ∀ ls s o, Emulation d ls s op .all false o → o.failure = none →
      Comparison.writesRows d = false → Emulation.OfValues ls s → (∀ e ∈ ls, e.isScalar = true) →
      s.restriction ≠ some (.junction .disjunction []) →
      ∀ (T : Tables α) outer, (∀ V ∈ T (s.tablesText d), V.row d ls = outer) →
        ∃ found, o.existence? T = some found ∧ (found = true ↔ ∀ V ∈ T (s.tablesText d),
          s.Keeps d V → Row.nullTestsTruth op outer (V.row d s.columns) ≠ .false) := by
  refine ⟨fun l r hshape hl hr h => ?_, ?_⟩
  · have hvalue := RowValue.value?_tested V hemulated hrule hop hshape hl hr h
    exact ⟨hvalue, Render.value?_negated d V hvalue⟩
  · intro ls s o h hok hrows hvalues hscalar hs T outer houter
    exact Emulation.existence?_tested hemulated hrule hop hvalues hscalar hrows h hok hs T houter

/-- A dialect that writes out rows by their values, and distinctness by null tests. -/
def Dialect.nullTesting : Dialect :=
  { Dialect.timesten with
    strategies := { Dialect.timesten.strategies with comparison := .standard } }

open Emulation (pair pairs)

/-- A null that both sides share leaves open that they are the same. -/
theorem nullTests_truth_shared :
    let V := RowValue.nullColumn
    let apart := Predicate.comparison (.tuple pair) .distinct (.tuple pair)
    let alike := Predicate.comparison (.column none "a") .notDistinct (.column none "b")
    let all := Render.predicate .nullTesting
      (.comparison (.tuple pair) .distinct (.quantified .all (.spec pairs)))
    (Render.predicate .nullTesting apart).value? V = some .unknown ∧
      (Render.predicate .nullTesting (.negated apart)).value? V = some .unknown ∧
      (Render.predicate .nullTesting alike).value? V = some .unknown ∧
      all.existence? (fun _ => [Valuation.ofColumns [("a", 1), ("x", 1), ("z", 0)]]) =
        some true := by
  intro V apart alike all
  obtain ⟨hdistinct, hall⟩ :=
    @nullTests_truth Nat _ V .nullTesting rfl (by decide) .distinct rfl
  obtain ⟨hnotDistinct, -⟩ :=
    @nullTests_truth Nat _ V .nullTesting rfl (by decide) .notDistinct rfl
  obtain ⟨hapart, hnegated⟩ := hdistinct (.tuple pair) (.tuple pair) rfl (by decide) (by decide)
    ⟨by decide, rfl, by decide, by decide⟩
  obtain ⟨halike, -⟩ := hnotDistinct (.column none "a") (.column none "b") rfl (by decide)
    (by decide) ⟨by decide, rfl, by decide, by decide⟩
  have hemulation : Emulation .nullTesting pair pairs .distinct .all false all :=
    .quantified .distinct .all rfl (by decide)
  have hmatch : (RowValue.tuples .nullTesting pairs.columns pair .distinct true).failure = none :=
    RowValue.failure_testedRows rfl (by decide) rfl true (by decide) (by decide)
      ⟨by decide, rfl, by decide, by decide⟩
  have hrestriction : ∀ r, pairs.movedRestriction .nullTesting = some r → r.failure = none := by
    intro r hr
    cases hr
    decide
  have hok : all.failure = none := by
    refine hemulation.rendered rfl rfl (by decide) hrestriction ?_
    rw [Comparison.selectTuple]
    exact hmatch
  obtain ⟨found, hfound, hiff⟩ := hall pair pairs all hemulation hok rfl Emulation.ofValues_pairs
    (by decide) Emulation.restriction_pairs
    (fun _ => [Valuation.ofColumns [("a", 1), ("x", 1), ("z", 0)]]) [some 1, none] (by decide)
  refine ⟨hapart.trans (by decide), hnegated.trans (by decide), halike.trans (by decide), ?_⟩
  rw [hfound, hiff.2 (by decide)]

end DialectSql
