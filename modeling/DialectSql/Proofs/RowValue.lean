import DialectSql.Proofs.Condition.Comparison
import DialectSql.Proofs.Condition.Junction

namespace DialectSql

variable {α : Type*} [LinearOrder α]

namespace ComparisonOperator

variable {op : ComparisonOperator}

theorem truth_of_ordering (hop : op.isOrdering = true) (x y : Option α) :
    op.truth x y = op.verdict (valueOrder x y) := by
  cases op <;> first | rfl | simp [isOrdering] at hop

theorem isOrdering_sharper (hop : op.isOrdering = true) : op.sharper.isOrdering = true := by
  cases op <;> first | rfl | simp [isOrdering] at hop

theorem isOrdering_broader (hop : op.isOrdering = true) : op.broader.isOrdering = true := by
  cases op <;> first | rfl | simp [isOrdering] at hop

theorem isDistinctness_of_isOrdering (hop : op.isOrdering = true) : op.isDistinctness = false := by
  cases op <;> first | rfl | simp [isOrdering] at hop

theorem truth_sharper (hop : op.isOrdering = true) (x y : Option α) :
    op.sharper.truth x y = op.sharper.verdict (valueOrder x y) :=
  truth_of_ordering (isOrdering_sharper hop) x y

theorem truth_broader (hop : op.isOrdering = true) (x y : Option α) :
    op.broader.truth x y = op.broader.verdict (valueOrder x y) :=
  truth_of_ordering (isOrdering_broader hop) x y

theorem truth_notEqual (x y : Option α) : notEqual.truth x y = (equal.truth x y).not := by
  change notEqual.verdict (valueOrder x y) = (equal.verdict (valueOrder x y)).not
  rcases valueOrder x y with _ | _ | _ | _ <;> rfl

end ComparisonOperator

namespace Row

variable {op : ComparisonOperator}

theorem truth_of_ordering (hop : op.isOrdering = true) (xs ys : List (Option α)) :
    truth op xs ys = op.verdict (order xs ys) := by
  cases op <;> first | rfl | simp [ComparisonOperator.isOrdering] at hop

/-- Either the first values decide strictly, or they are equal and the others decide. -/
theorem verdict_sharper (hop : op.isOrdering = true) (x y : Option α) (xs ys : List (Option α)) :
    (op.sharper.truth x y).or
        ((ComparisonOperator.equal.truth x y).and (op.verdict (order xs ys))) =
      op.verdict (order (x :: xs) (y :: ys)) := by
  have hequal : ComparisonOperator.equal.truth x y =
      ComparisonOperator.equal.verdict (valueOrder x y) := rfl
  rw [ComparisonOperator.truth_sharper hop, hequal, order]
  generalize valueOrder x y = o
  generalize order xs ys = rest
  cases op <;> first | (simp [ComparisonOperator.isOrdering] at hop; done) | skip
  all_goals rcases o with _ | _ | _ | _ <;> rcases rest with _ | _ | _ | _ <;> rfl

/-- The first values admit the order, and either they decide strictly or the others decide. -/
theorem verdict_broader (hop : op.isOrdering = true) (x y : Option α) (xs ys : List (Option α)) :
    (op.broader.truth x y).and ((op.sharper.truth x y).or (op.verdict (order xs ys))) =
      op.verdict (order (x :: xs) (y :: ys)) := by
  rw [ComparisonOperator.truth_sharper hop, ComparisonOperator.truth_broader hop, order]
  generalize valueOrder x y = o
  generalize order xs ys = rest
  cases op <;> first | (simp [ComparisonOperator.isOrdering] at hop; done) | skip
  all_goals rcases o with _ | _ | _ | _ <;> rcases rest with _ | _ | _ | _ <;> rfl

theorem verdict_single (hop : op.isOrdering = true) (x y : Option α) :
    op.truth x y = op.verdict (order [x] [y]) := by
  rw [ComparisonOperator.truth_of_ordering hop]
  simp only [order]
  rcases valueOrder x y with _ | _ | _ | _ <;> rfl

theorem truth_notEqual (xs ys : List (Option α)) :
    truth .notEqual xs ys = .any (List.zipWith (ComparisonOperator.truth .notEqual) xs ys) := by
  have hnot : ComparisonOperator.truth .notEqual = fun x y : Option α =>
      (ComparisonOperator.truth .equal x y).not :=
    funext₂ ComparisonOperator.truth_notEqual
  rw [hnot, ← List.map_zipWith, ← Truth.not_all]
  rfl

end Row

def Valuation.of (V : Valuation α) (o : Output) : Option α := V.operand (Lexeme.ofPieces o.pieces)

namespace Comparison

variable (V : Valuation α)

abbrev reading : Output.Layers := .reading

theorem partsTruth_plain {op : ComparisonOperator} (hop : op.isDistinctness = false)
    {l r : Operand} (hl : l.Holds reading) (hr : r.Holds reading)
    (hok : (plain l op r).failure = none) :
    Condition.partsTruth V (plain l op r).parts = op.truth (V.of l.output) (V.of r.output) := by
  have htest : (plain l op r).Within Lexeme.ofTest := reading.plain hl hr op
  rw [Condition.partsTruth_factor V (htest.isFactor hok)]
  exact Output.factorTruth_compared V hop (reading.operand hl) (reading.operand hr) hok

theorem plainEach_ne_nil {op : ComparisonOperator} {ls rs : List Operand} (hne : ls ≠ [])
    (hlen : ls.length = rs.length) : plainEach op ls rs ≠ [] := by
  cases ls with
  | nil => exact absurd rfl hne
  | cons l ls =>
      cases rs with
      | nil => simp at hlen
      | cons r rs => simp [plainEach]

theorem map_partsTruth_plainEach {op : ComparisonOperator} (hop : op.isDistinctness = false)
    {ls rs : List Operand} (hl : operandsHold reading ls) (hr : operandsHold reading rs)
    (hok : ∀ o ∈ plainEach op ls rs, o.failure = none) :
    (plainEach op ls rs).map (fun o => Condition.partsTruth V o.parts) =
      List.zipWith op.truth ((operandOutputs ls).map V.of) ((operandOutputs rs).map V.of) := by
  induction ls generalizing rs with
  | nil => simp [plainEach, operandOutputs]
  | cons l ls ih =>
      cases rs with
      | nil => simp [plainEach, operandOutputs]
      | cons r rs =>
          have hfirst := partsTruth_plain V hop hl.1 hr.1 (hok _ (by simp [plainEach]))
          have hrest := ih hl.2 hr.2 fun o ho => hok o (by simp [plainEach, ho])
          simp [plainEach, operandOutputs, hfirst, hrest]

theorem partsTruth_lexicographic {op : ComparisonOperator} (hop : op.isOrdering = true)
    {ls rs : List Operand} (hl : operandsHold reading ls) (hr : operandsHold reading rs)
    (hne : ls ≠ []) (hlen : ls.length = rs.length) (hok : (lexicographic op ls rs).failure = none) :
    Condition.partsTruth V (lexicographic op ls rs).parts =
      op.verdict (Row.order ((operandOutputs ls).map V.of) ((operandOutputs rs).map V.of)) := by
  have hdistinct := ComparisonOperator.isDistinctness_of_isOrdering hop
  have hsharper : op.sharper.isDistinctness = false :=
    ComparisonOperator.isDistinctness_of_isOrdering (ComparisonOperator.isOrdering_sharper hop)
  fun_induction lexicographic op ls rs with
  | case1 l r rs =>
      obtain rfl : rs = [] := by simpa using hlen
      rw [partsTruth_plain V hdistinct hl.1 hr.1 hok]
      exact Row.verdict_single hop _ _
  | case2 l ls r rs hls ih =>
      have hfirst : (plain l op.sharper r).Within Lexeme.ofTest := reading.plain hl.1 hr.1 _
      have hequal : (plain l .equal r).Within Lexeme.ofTest := reading.plain hl.1 hr.1 _
      have hrest : (lexicographic op ls rs).Within Lexeme.ofCondition :=
        reading.lexicographic op hl.2 hr.2
      have hgroup : (plain l .equal r ++ (.word " and (" ++ lexicographic op ls rs ++ .word ")")).Within
          Lexeme.ofQuery :=
        (reading.query_of_test hequal).append
          (reading.ofQuery.bracketed .paren _ _ rfl rfl (reading.query_of_condition hrest))
      -- `and` binds closer than `or`, so that the equality goes with the group behind it
      have hshape : plain l op.sharper r ++ .word " or " ++ plain l .equal r ++ .word " and (" ++
          lexicographic op ls rs ++ .word ")" = plain l op.sharper r ++ .word " or " ++
            (plain l .equal r ++ (.word " and (" ++ lexicographic op ls rs ++ .word ")")) := by
        simp only [Output.append_assoc]
      rw [hshape] at hok ⊢
      obtain ⟨hfirstok, hgroupok⟩ := Output.failure_append_eq_none.1 hok
      obtain ⟨hequalok, hrestok⟩ := Output.failure_append_eq_none.1 hgroupok
      rw [Output.partsTruth_either V (reading.query_of_test hfirst) hgroup hok,
        Output.partsTruth_andGroup V hequal hrest hgroupok,
        partsTruth_plain V hsharper hl.1 hr.1 (Output.failure_append_eq_none.1 hfirstok).1,
        partsTruth_plain V rfl hl.1 hr.1 hequalok,
        ih hl.2 hr.2 hls (by simpa using hlen) (by simpa using hrestok)]
      exact Row.verdict_sharper hop _ _ _ _
  | case3 ls rs hsingle hmore =>
      obtain rfl | rfl := eq_nil_of_unpaired hmore
      · exact absurd rfl hne
      · exact absurd (List.length_eq_zero_iff.1 hlen) hne

theorem partsTruth_leadingBound {op : ComparisonOperator} (hop : op.isOrdering = true)
    {ls rs : List Operand} (hl : operandsHold reading ls) (hr : operandsHold reading rs)
    (hne : ls ≠ []) (hlen : ls.length = rs.length) (hok : (leadingBound op ls rs).failure = none) :
    Condition.partsTruth V (leadingBound op ls rs).parts =
      op.verdict (Row.order ((operandOutputs ls).map V.of) ((operandOutputs rs).map V.of)) := by
  have hdistinct := ComparisonOperator.isDistinctness_of_isOrdering hop
  have hsharper : op.sharper.isDistinctness = false :=
    ComparisonOperator.isDistinctness_of_isOrdering (ComparisonOperator.isOrdering_sharper hop)
  have hbroader : op.broader.isDistinctness = false :=
    ComparisonOperator.isDistinctness_of_isOrdering (ComparisonOperator.isOrdering_broader hop)
  fun_induction leadingBound op ls rs with
  | case1 l r rs =>
      obtain rfl : rs = [] := by simpa using hlen
      rw [partsTruth_plain V hdistinct hl.1 hr.1 hok]
      exact Row.verdict_single hop _ _
  | case2 l ls r rs hls ih =>
      have hbound : (plain l op.broader r).Within Lexeme.ofTest := reading.plain hl.1 hr.1 _
      have hfirst : (plain l op.sharper r).Within Lexeme.ofCondition :=
        reading.plainCondition hl.1 hr.1 _
      have hrest : (leadingBound op ls rs).Within Lexeme.ofCondition :=
        reading.leadingBound op hl.2 hr.2
      have hinner : (plain l op.sharper r ++ .word " or " ++ leadingBound op ls rs).Within
          Lexeme.ofCondition :=
        (hfirst.append (reading.ofCondition.fixed _ rfl)).append hrest
      have hshape : plain l op.broader r ++ .word " and (" ++ plain l op.sharper r ++ .word " or " ++
          leadingBound op ls rs ++ .word ")" = plain l op.broader r ++ (.word " and (" ++
            (plain l op.sharper r ++ .word " or " ++ leadingBound op ls rs) ++ .word ")") := by
        simp only [Output.append_assoc]
      rw [hshape] at hok ⊢
      obtain ⟨hboundok, hgroupok⟩ := Output.failure_append_eq_none.1 hok
      have hinnerok : (plain l op.sharper r ++ .word " or " ++ leadingBound op ls rs).failure =
          none := by simpa using hgroupok
      obtain ⟨hfirstok, hrestok⟩ := Output.failure_append_eq_none.1 hinnerok
      rw [Output.partsTruth_andGroup V hbound hinner hok,
        Output.partsTruth_either V (reading.query_of_condition hfirst)
          (reading.query_of_condition hrest) hinnerok,
        partsTruth_plain V hbroader hl.1 hr.1 hboundok,
        partsTruth_plain V hsharper hl.1 hr.1 (Output.failure_append_eq_none.1 hfirstok).1,
        ih hl.2 hr.2 hls (by simpa using hlen) hrestok]
      exact Row.verdict_broader hop _ _ _ _
  | case3 ls rs hsingle hmore =>
      obtain rfl | rfl := eq_nil_of_unpaired hmore
      · exact absurd rfl hne
      · exact absurd (List.length_eq_zero_iff.1 hlen) hne

theorem partsTruth_ordering {op : ComparisonOperator} (hop : op.isOrdering = true) (bounded : Bool)
    {ls rs : List Operand} (hl : operandsHold reading ls) (hr : operandsHold reading rs)
    (hne : ls ≠ []) (hlen : ls.length = rs.length)
    (hok : (if bounded = true then leadingBound op ls rs
      else lexicographic op ls rs).parenthesized.failure = none) :
    Condition.partsTruth V (if bounded = true then leadingBound op ls rs
      else lexicographic op ls rs).parenthesized.parts =
      Row.truth op ((operandOutputs ls).map V.of) ((operandOutputs rs).map V.of) := by
  rw [Row.truth_of_ordering hop]
  rw [Output.failure_parenthesized] at hok
  cases bounded with
  | false =>
      have hwithin : (lexicographic op ls rs).Within Lexeme.ofCondition :=
        reading.lexicographic op hl hr
      rw [← partsTruth_lexicographic V hop hl hr hne hlen hok]
      exact Output.partsTruth_parenthesized V hwithin hok
  | true =>
      have hwithin : (leadingBound op ls rs).Within Lexeme.ofCondition :=
        reading.leadingBound op hl hr
      rw [← partsTruth_leadingBound V hop hl hr hne hlen hok]
      exact Output.partsTruth_parenthesized V hwithin hok

/-- The condition in the brackets where two tuples are compared by their elements. -/
def elementwise (d : Dialect) (ls rs : List Operand) (op : ComparisonOperator) (bounded : Bool) :
    Output :=
  match op with
  | .equal => .joined " and " (plainEach op ls rs)
  | .notEqual => .joined " or " (plainEach op ls rs)
  | .distinct => .joined " or " (renderEach d op ls rs)
  | .notDistinct => .joined " and " (renderEach d op ls rs)
  | op => if bounded then leadingBound op ls rs else lexicographic op ls rs

theorem tuples_eq (d : Dialect) {ls rs : List Operand} (op : ComparisonOperator) (bounded : Bool)
    (hlen : ls.length = rs.length) (hne : ls ≠ []) :
    tuples d ls rs op bounded = (elementwise d ls rs op bounded).parenthesized := by
  have hempty : ls.isEmpty = false := by simpa using hne
  rw [tuples.eq_def, hlen, Output.checkArity_self, Output.empty_append, hempty]
  cases op <;> rfl

theorem arity_of_tuples {d : Dialect} {ls rs : List Operand} {op : ComparisonOperator}
    {bounded : Bool} (hok : (tuples d ls rs op bounded).failure = none) :
    ls.length = rs.length ∧ ls ≠ [] := by
  rw [tuples.eq_def] at hok
  obtain ⟨harity, hbody⟩ := Output.failure_append_eq_none.1 hok
  refine ⟨(Output.failure_checkArity _ _).1 harity, ?_⟩
  rintro rfl
  simp at hbody

/-- Two tuples compared by their elements have the value of the comparison of the two rows. -/
theorem partsTruth_tuples (d : Dialect) {op : ComparisonOperator} (hop : op.isDistinctness = false)
    (bounded : Bool) {ls rs : List Operand} (hl : operandsHold reading ls)
    (hr : operandsHold reading rs) (hok : (tuples d ls rs op bounded).failure = none) :
    Condition.partsTruth V (tuples d ls rs op bounded).parts =
      Row.truth op ((operandOutputs ls).map V.of) ((operandOutputs rs).map V.of) := by
  obtain ⟨hlen, hne⟩ := arity_of_tuples hok
  rw [tuples_eq d op bounded hlen hne] at hok ⊢
  have heach (op : ComparisonOperator) : ∀ o ∈ plainEach op ls rs, o.Within Lexeme.ofTest :=
    reading.plainEach op hl hr
  have hsome (op : ComparisonOperator) : plainEach op ls rs ≠ [] := plainEach_ne_nil hne hlen
  cases op with
  | equal =>
      rw [elementwise, Output.failure_parenthesized, Output.failure_joined_eq_none] at hok
      rw [elementwise, Output.partsTruth_allOf V (hsome _) (heach _) hok,
        map_partsTruth_plainEach V rfl hl hr hok]
      rfl
  | notEqual =>
      rw [elementwise, Output.failure_parenthesized, Output.failure_joined_eq_none] at hok
      rw [elementwise, Output.partsTruth_someOf V (hsome _) (heach _) hok,
        map_partsTruth_plainEach V rfl hl hr hok, Row.truth_notEqual]
  | distinct | notDistinct => simp [ComparisonOperator.isDistinctness] at hop
  | lessThan => exact partsTruth_ordering V rfl bounded hl hr hne hlen hok
  | lessThanOrEqual => exact partsTruth_ordering V rfl bounded hl hr hne hlen hok
  | greaterThan => exact partsTruth_ordering V rfl bounded hl hr hne hlen hok
  | greaterThanOrEqual => exact partsTruth_ordering V rfl bounded hl hr hne hlen hok

theorem failure_plain (l : Operand) (op : ComparisonOperator) (r : Operand) :
    (plain l op r).failure = none ↔ l.output.failure = none ∧ r.output.failure = none := by
  simp [plain]

theorem failure_plainEach (op : ComparisonOperator) {ls rs : List Operand}
    (hl : ∀ o ∈ operandOutputs ls, o.failure = none)
    (hr : ∀ o ∈ operandOutputs rs, o.failure = none) :
    ∀ o ∈ plainEach op ls rs, o.failure = none := by
  induction ls generalizing rs with
  | nil => simp [plainEach]
  | cons l ls ih =>
      cases rs with
      | nil => simp [plainEach]
      | cons r rs =>
          simp only [operandOutputs, List.forall_mem_cons] at hl hr
          simp only [plainEach, List.forall_mem_cons]
          exact ⟨(failure_plain l op r).2 ⟨hl.1, hr.1⟩, ih hl.2 hr.2⟩

theorem failure_lexicographic (op : ComparisonOperator) {ls rs : List Operand}
    (hl : ∀ o ∈ operandOutputs ls, o.failure = none)
    (hr : ∀ o ∈ operandOutputs rs, o.failure = none) :
    (lexicographic op ls rs).failure = none := by
  fun_induction lexicographic op ls rs with
  | case1 l r rs =>
      simp only [operandOutputs, List.forall_mem_cons] at hl hr
      exact (failure_plain l op r).2 ⟨hl.1, hr.1⟩
  | case2 l ls r rs hls ih =>
      simp only [operandOutputs, List.forall_mem_cons] at hl hr
      simp [failure_plain, hl.1, hr.1, ih hl.2 hr.2]
  | case3 => rfl

/-- The two forms of an ordering fail alike, as they hold the same operands. -/
theorem failure_leadingBound (op : ComparisonOperator) (ls rs : List Operand) :
    (leadingBound op ls rs).failure = none ↔ (lexicographic op ls rs).failure = none := by
  fun_induction leadingBound op ls rs with
  | case1 l r rs => rw [lexicographic]
  | case2 l ls r rs hls ih =>
      rw [lexicographic]
      · simp [failure_plain, ih]
      · exact hls
  | case3 ls rs hsingle hmore =>
      rw [lexicographic]
      · exact hsingle
      · exact hmore

theorem failure_tuples (d : Dialect) {op : ComparisonOperator} (hop : op.isDistinctness = false)
    (bounded : Bool) {ls rs : List Operand} (hne : ls ≠ []) (hlen : ls.length = rs.length)
    (hl : ∀ o ∈ operandOutputs ls, o.failure = none)
    (hr : ∀ o ∈ operandOutputs rs, o.failure = none) :
    (tuples d ls rs op bounded).failure = none := by
  have heach (separator : String) (op : ComparisonOperator) :
      (Output.joined separator (plainEach op ls rs)).parenthesized.failure = none := by
    rw [Output.failure_parenthesized, Output.failure_joined_eq_none]
    exact failure_plainEach op hl hr
  have hordering (op : ComparisonOperator) : (if bounded = true then leadingBound op ls rs
      else lexicographic op ls rs).parenthesized.failure = none := by
    rw [Output.failure_parenthesized]
    split
    · exact (failure_leadingBound op ls rs).2 (failure_lexicographic op hl hr)
    · exact failure_lexicographic op hl hr
  rw [tuples_eq d op bounded hlen hne]
  cases op with
  | equal => exact heach " and " .equal
  | notEqual => exact heach " or " .notEqual
  | distinct | notDistinct => simp [ComparisonOperator.isDistinctness] at hop
  | lessThan => exact hordering .lessThan
  | lessThanOrEqual => exact hordering .lessThanOrEqual
  | greaterThan => exact hordering .greaterThan
  | greaterThanOrEqual => exact hordering .greaterThanOrEqual

end Comparison

def Valuation.row (V : Valuation α) (d : Dialect) (es : List Expr) : List (Option α) :=
  es.map fun e => V.of (Render.expression d e)

/-- Two rows of equally many expressions, at least one, that can all be rendered. -/
structure Comparable (d : Dialect) (ls rs : List Expr) : Prop where
  nonempty : ls ≠ []
  arity : ls.length = rs.length
  left : ∀ e ∈ ls, (Render.expression d e).failure = none
  right : ∀ e ∈ rs, (Render.expression d e).failure = none

namespace Render

theorem operandOutputs_operands (d : Dialect) (es : List Expr) :
    operandOutputs (operands d es) = es.map (expression d) := by
  induction es with
  | nil => rfl
  | cons e es ih => simp [operands, operandOutputs, ih, expression]

theorem length_operands (d : Dialect) (es : List Expr) : (operands d es).length = es.length := by
  induction es with
  | nil => rfl
  | cons e es ih => simp [operands, ih]

theorem elements_operand (d : Dialect) (e : Expr) :
    (operand d e).elements = operands d e.elements := by
  cases e with
  | tuple es => simp [operand, Operand.elements, Expr.elements]
  | «case» branches otherwise => cases otherwise <;> rfl
  | _ => rfl

end Render

namespace RowValue

variable (V : Valuation α) (d : Dialect)

abbrev tuples (ls rs : List Expr) (op : ComparisonOperator) (bounded : Bool) : Output :=
  Comparison.tuples d (Render.operands d ls) (Render.operands d rs) op bounded

variable {d} {ls rs : List Expr} {op : ComparisonOperator}

theorem failure_tuples (h : Comparable d ls rs) (hop : op.isDistinctness = false) (bounded : Bool) :
    (tuples d ls rs op bounded).failure = none := by
  apply Comparison.failure_tuples d hop bounded
  · rw [← List.length_pos_iff, Render.length_operands]
    exact List.length_pos_iff.2 h.nonempty
  · rw [Render.length_operands, Render.length_operands, h.arity]
  · rw [Render.operandOutputs_operands]
    simpa using h.left
  · rw [Render.operandOutputs_operands]
    simpa using h.right

theorem partsTruth_tuples (h : Comparable d ls rs) (hop : op.isDistinctness = false)
    (bounded : Bool) :
    Condition.partsTruth V (tuples d ls rs op bounded).parts =
      Row.truth op (V.row d ls) (V.row d rs) := by
  rw [Comparison.partsTruth_tuples V d hop bounded (Output.Layers.reading.operandsHolds d ls)
    (Output.Layers.reading.operandsHolds d rs) (failure_tuples h hop bounded),
    Render.operandOutputs_operands, Render.operandOutputs_operands, List.map_map, List.map_map]
  rfl

theorem tuples_within (ls rs : List Expr) (op : ComparisonOperator) (bounded : Bool) :
    (tuples d ls rs op bounded).Within Lexeme.ofTest :=
  Output.Layers.reading.tuples d _ _ op bounded (Output.Layers.reading.operandsHolds d ls)
    (Output.Layers.reading.operandsHolds d rs)

/-- A condition in brackets, behind `not` if it is negated. -/
theorem value?_negatable {o : Output} (h : o.Within Lexeme.ofCondition) (hok : o.failure = none)
    (negated : Bool) :
    (Output.when negated (.word "not ") ++ o.parenthesized).value? V =
      some (if negated then (Condition.partsTruth V o.parts).not
        else Condition.partsTruth V o.parts) := by
  have hgroup : o.parenthesized.Within Lexeme.ofTest :=
    Output.Layers.reading.ofTest.parenthesized (Output.Layers.reading.query_of_condition h)
  have hgroupok : o.parenthesized.failure = none := by simpa using hok
  cases negated with
  | false =>
      rw [Output.when, if_neg (by simp), Output.empty_append, Output.value?_eq V hgroup hgroupok,
        Output.partsTruth_parenthesized V h hok]
      rfl
  | true =>
      have hnot : (Output.word "not " ++ o.parenthesized).Within Lexeme.ofTest :=
        (Output.Layers.reading.ofTest.fixed _ rfl).append hgroup
      have hnotok : (Output.word "not " ++ o.parenthesized).failure = none := by simpa using hok
      rw [Output.when, if_pos rfl, Output.value?_eq V hnot hnotok,
        Output.partsTruth_not V hgroup hgroupok, Output.partsTruth_parenthesized V h hok]
      rfl

theorem value?_tuples (h : Comparable d ls rs) (hop : op.isDistinctness = false) (bounded : Bool) :
    (tuples d ls rs op bounded).value? V = some (Row.truth op (V.row d ls) (V.row d rs)) := by
  rw [Output.value?_eq V (tuples_within ls rs op bounded) (failure_tuples h hop bounded),
    partsTruth_tuples V h hop bounded]

theorem value?_comparison (hcapability : d.capabilities.rowValueConstructor = false)
    (h : Comparable d ls rs) (hop : op.isDistinctness = false) :
    (Render.predicate d (.comparison (.tuple ls) op (.tuple rs))).value? V =
      some (Row.truth op (V.row d ls) (V.row d rs)) := by
  have hstandard : Comparison.standard d (.tuple (Render.operands d ls)) op
      (.tuple (Render.operands d rs)) = tuples d ls rs op true := by
    rw [Comparison.standard.eq_def]
    simp [hcapability, Render.length_operands, h.arity]
  rw [Render.predicate, Render.operand, Render.operand, Comparison.render.eq_def]
  split
  · rw [hstandard]
    exact value?_tuples V h hop true
  · rw [Comparison.intersect, hop, if_neg (by simp), hstandard]
    exact value?_tuples V h hop true
  · exact value?_tuples V h hop false

theorem map_operands {β : Type*} (f : Operand → β) (items : List Expr) :
    (Render.operands d items).map f = items.map fun i => f (Render.operand d i) := by
  induction items with
  | nil => rfl
  | cons i items ih => simp [Render.operands, ih]

theorem checkArities_eq (n : Nat) {items : List Expr} (h : ∀ i ∈ items, n = i.elements.length) :
    Render.checkArities n (Render.operands d items) = .empty := by
  rw [Render.checkArities, map_operands]
  induction items with
  | nil => rfl
  | cons i items ih =>
      have hrest := ih fun j hj => h j (List.mem_cons_of_mem i hj)
      rw [List.map_cons, Output.concat, hrest, Render.elements_operand, Render.length_operands,
        ← h i (by simp), Output.checkArity_self, Output.append_empty]

/-- A list of rows that is written out: the row is equal to one of them. -/
theorem value?_inList (hcapability : d.capabilities.rowValueInList = false) {items : List Expr}
    (hne : items ≠ []) (h : ∀ i ∈ items, Comparable d ls i.elements) (negated : Bool) :
    (Render.predicate d (.inList (.tuple ls) items negated)).value? V =
      some (Row.memberTruth (V.row d ls) (items.map fun i => V.row d i.elements) negated) := by
  have hempty : (Render.operands d items).isEmpty = false := by
    cases items with
    | nil => exact absurd rfl hne
    | cons i items => rfl
  have harities := checkArities_eq (d := d) ls.length fun i hi => (h i hi).arity
  have hshape : Render.predicate d (.inList (.tuple ls) items negated) =
      .when negated (.word "not ") ++ (Output.joined " or "
        (items.map fun i => tuples d ls i.elements .equal false)).parenthesized := by
    rw [Render.predicate, Render.operand, Render.inList.eq_def]
    simp [hempty, hcapability, Render.length_operands, harities, map_operands,
      Render.elements_operand]
  have hwithin : ∀ o ∈ items.map fun i => tuples d ls i.elements .equal false,
      o.Within Lexeme.ofTest := by
    intro o ho
    obtain ⟨i, -, rfl⟩ := List.mem_map.1 ho
    exact tuples_within _ _ _ _
  have hok : (Output.joined " or "
      (items.map fun i => tuples d ls i.elements .equal false)).failure = none := by
    rw [Output.failure_joined_eq_none]
    intro o ho
    obtain ⟨i, hi, rfl⟩ := List.mem_map.1 ho
    exact failure_tuples (h i hi) rfl false
  have hjoined : (Output.joined " or "
      (items.map fun i => tuples d ls i.elements .equal false)).Within Lexeme.ofCondition :=
    Output.Layers.reading.ofCondition.joined rfl
      fun o ho => Output.Layers.reading.condition_of_test (hwithin o ho)
  have hmembers : items.map (fun i => Condition.partsTruth V (tuples d ls i.elements .equal false).parts)
      = (items.map fun i => V.row d i.elements).map (Row.truth .equal (V.row d ls)) := by
    rw [List.map_map]
    exact List.map_congr_left fun i hi => partsTruth_tuples V (h i hi) rfl false
  rw [hshape, value?_negatable V hjoined hok, Output.partsTruth_joinedOr V (by simpa using hne)
    (fun o ho => Output.Layers.reading.query_of_test (hwithin o ho)) hok, List.map_map]
  exact congrArg (fun ts => some (if negated then (Truth.any ts).not else Truth.any ts)) hmembers

theorem isTuple_operand (e : Expr) : (Render.operand d e).isTuple = e.isTuple := by
  cases e with
  | «case» branches otherwise => cases otherwise <;> rfl
  | _ => rfl

/-- A range of rows that is written out: the row is not before the one and not behind the other. -/
theorem value?_between (hcapability : d.capabilities.rowValueConstructor = false)
    {e low high : Expr} (htuple : e.isTuple || low.isTuple || high.isTuple)
    (hlow : Comparable d e.elements low.elements) (hhigh : Comparable d e.elements high.elements)
    (negated : Bool) :
    (Render.predicate d (.between e low high negated)).value? V =
      some (Row.betweenTruth (V.row d e.elements) (V.row d low.elements) (V.row d high.elements)
        negated) := by
  have hshape : Render.predicate d (.between e low high negated) =
      .when negated (.word "not ") ++
        (tuples d e.elements low.elements .greaterThanOrEqual true ++ .word " and " ++
          tuples d e.elements high.elements .lessThanOrEqual true).parenthesized := by
    rw [Render.predicate, Render.between, isTuple_operand, isTuple_operand, isTuple_operand, htuple]
    simp [hcapability, Render.elements_operand, Render.length_operands, ← hlow.arity, ← hhigh.arity]
  have hfirst := tuples_within (d := d) e.elements low.elements .greaterThanOrEqual true
  have hsecond := tuples_within (d := d) e.elements high.elements .lessThanOrEqual true
  have hfirstok : (tuples d e.elements low.elements .greaterThanOrEqual true).failure = none :=
    failure_tuples hlow rfl true
  have hsecondok : (tuples d e.elements high.elements .lessThanOrEqual true).failure = none :=
    failure_tuples hhigh rfl true
  have hok : (tuples d e.elements low.elements .greaterThanOrEqual true ++ .word " and " ++
      tuples d e.elements high.elements .lessThanOrEqual true).failure = none := by
    simp [hfirstok, hsecondok]
  have hboth : (tuples d e.elements low.elements .greaterThanOrEqual true ++ .word " and " ++
      tuples d e.elements high.elements .lessThanOrEqual true).Within Lexeme.ofCondition :=
    ((Output.Layers.reading.condition_of_test hfirst).append
      (Output.Layers.reading.ofCondition.fixed _ rfl)).append
      (Output.Layers.reading.condition_of_test hsecond)
  rw [hshape, value?_negatable V hboth hok, Output.partsTruth_both V hfirst hsecond hok,
    partsTruth_tuples V hlow rfl, partsTruth_tuples V hhigh rfl]
  rfl

end RowValue

/-- Row values that are written out by their elements keep the truth value of the row values, also
where nulls leave it unknown. -/
theorem rowValue_truth (V : Valuation α) (d : Dialect) :
    (∀ ls rs op bounded, Comparable d ls rs → op.isDistinctness = false →
      (RowValue.tuples d ls rs op bounded).value? V =
        some (Row.truth op (V.row d ls) (V.row d rs))) ∧
    (d.capabilities.rowValueConstructor = false →
      (∀ ls rs op, Comparable d ls rs → op.isDistinctness = false →
        (Render.predicate d (.comparison (.tuple ls) op (.tuple rs))).value? V =
          some (Row.truth op (V.row d ls) (V.row d rs))) ∧
      ∀ e low high negated, e.isTuple || low.isTuple || high.isTuple →
        Comparable d e.elements low.elements → Comparable d e.elements high.elements →
        (Render.predicate d (.between e low high negated)).value? V =
          some (Row.betweenTruth (V.row d e.elements) (V.row d low.elements)
            (V.row d high.elements) negated)) ∧
    (d.capabilities.rowValueInList = false →
      ∀ es items negated, items ≠ [] → (∀ i ∈ items, Comparable d es i.elements) →
        (Render.predicate d (.inList (.tuple es) items negated)).value? V =
          some (Row.memberTruth (V.row d es) (items.map fun i => V.row d i.elements) negated)) := by
  refine ⟨?_, fun hconstructor => ⟨?_, ?_⟩, fun hlist => ?_⟩
  · intro ls rs op bounded h hop
    exact RowValue.value?_tuples V h hop bounded
  · intro ls rs op h hop
    exact RowValue.value?_comparison V hconstructor h hop
  · intro e low high negated htuple hlow hhigh
    exact RowValue.value?_between V hconstructor htuple hlow hhigh negated
  · intro es items negated hne h
    exact RowValue.value?_inList V hlist hne h negated

/-- All columns are one, except that `b` is null. -/
def RowValue.nullColumn : Valuation Nat :=
  ⟨fun text => if text = [.unit (.name "b")] then none else some 1, fun _ => .unknown⟩

theorem rowValue_truth_nullColumn :
    let row := [Expr.column none "a", .column none "b"]
    let other := [Expr.column none "x", .column none "y"]
    (RowValue.tuples .timesten row other .lessThan true).value? RowValue.nullColumn =
        some .unknown ∧
      (Render.predicate .timesten (.comparison (.tuple row) .notEqual (.tuple other))).value?
        RowValue.nullColumn = some .unknown ∧
      (Render.predicate .timesten (.between (.tuple row) (.tuple other) (.tuple other) true)).value?
        RowValue.nullColumn = some .unknown ∧
      (Render.predicate .timesten (.inList (.tuple row) [.tuple other] true)).value?
        RowValue.nullColumn = some .unknown := by
  have h : Comparable .timesten [Expr.column none "a", .column none "b"]
      [Expr.column none "x", .column none "y"] :=
    ⟨by simp, rfl, by simp [Render.expression, Render.operand, Operand.output, Render.qualified],
      by simp [Render.expression, Render.operand, Operand.output, Render.qualified]⟩
  obtain ⟨htuples, hconstructor, hlist⟩ := rowValue_truth RowValue.nullColumn .timesten
  obtain ⟨hcomparison, hbetween⟩ := hconstructor rfl
  have hitems : ∀ i ∈ [Expr.tuple [.column none "x", .column none "y"]],
      Comparable .timesten [Expr.column none "a", .column none "b"] i.elements := by
    intro i hi
    rw [List.mem_singleton.1 hi]
    exact h
  exact ⟨(htuples _ _ _ _ h rfl).trans (by decide), (hcomparison _ _ _ h rfl).trans (by decide),
    (hbetween (.tuple _) (.tuple _) (.tuple _) _ rfl h h).trans (by decide),
    (hlist rfl _ _ _ (by simp) hitems).trans (by decide)⟩

end DialectSql
