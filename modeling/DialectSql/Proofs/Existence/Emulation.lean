import DialectSql.Proofs.Existence.Match

namespace DialectSql

open Output.Layers (reading)

variable {α : Type*} [LinearOrder α]

/-- Distinctness of a row of a query is written with null tests of its values. -/
def Dialect.testsNulls (d : Dialect) : Bool :=
  d.capabilities.distinctFrom == .emulated && !Comparison.writesRows d

/-- An expression of one value that is no query. -/
def Expr.isScalar : Expr → Bool
  | .tuple _ | .subquery _ | .quantified _ _ => false
  | _ => true

namespace Expr

theorem eq_tuple_elements {e : Expr} (h : e.isTuple = true) : e = .tuple e.elements := by
  cases e <;> first | rfl | cases h

theorem eq_tuple {e : Expr} (h : e.isTuple = true) : ∃ es, e = .tuple es := ⟨_, eq_tuple_elements h⟩

theorem isTuple_of_isScalar {e : Expr} (h : e.isScalar = true) : e.isTuple = false := by
  cases e <;> first | rfl | cases h

theorem elements_of_value {e : Expr} (h : e.isTuple = false) : e.elements = [e] := by
  cases e <;> first | rfl | cases h

end Expr

namespace QuerySpec

/-- The text of the tables of a query. -/
def tablesText (d : Dialect) (s : QuerySpec) : List Lexeme :=
  Lexeme.ofPieces (Render.fromClause d (Render.tableGroups d s.roots)).pieces

/-- The expressions of the select list. -/
def columns (s : QuerySpec) : List Expr := s.selections.map (·.expr)

/-- The query neither merges nor limits rows. -/
def isMovable (s : QuerySpec) : Bool := !s.isAggregating && s.offset.isNone && s.fetch.isNone

/-- The restriction of a query is true on a row. -/
def Keeps (d : Dialect) (s : QuerySpec) (V : Valuation α) : Prop :=
  s.restriction.elim .true (fun p => p.truth V d) = .true

instance (d : Dialect) (s : QuerySpec) (V : Valuation α) : Decidable (s.Keeps d V) :=
  inferInstanceAs (Decidable (_ = Truth.true))

/-- The where clause as it is written, without an empty junction, is true on a row. -/
def filters (d : Dialect) (s : QuerySpec) (V : Valuation α) : Bool :=
  s.restriction.all fun p => p.isEmpty || p.truth V d == .true

theorem filters_iff {d : Dialect} {s : QuerySpec} (V : Valuation α)
    (hs : s.restriction ≠ some (.junction .disjunction [])) :
    s.filters d V = true ↔ s.Keeps d V := by
  rw [filters, Keeps]
  cases hrestriction : s.restriction with
  | none => simp
  | some p =>
      cases hempty : p.isEmpty with
      | false => simp [hempty]
      | true =>
          have htrue : p.truth V d = .true := by
            cases p with
            | junction nature members =>
                rw [Predicate.isEmpty, List.isEmpty_iff] at hempty
                subst hempty
                cases nature with
                | conjunction => rfl
                | disjunction => exact absurd hrestriction hs
            | _ => cases hempty
          simp [hempty, htrue]

def movedRestriction (d : Dialect) (s : QuerySpec) : Option Output :=
  match s.restriction with
  | some p => if p.isEmpty then none else some (Render.predicate d p)
  | none => none

end QuerySpec

namespace Render

variable (d : Dialect)

theorem selections_operands (ss : List Selection) :
    (selections d ss).map (·.1) = operands d (ss.map (·.expr)) := by
  induction ss with
  | nil => rfl
  | cons s ss ih =>
      cases s
      rw [selections, List.map_cons, ih]
      rfl

variable {d} in
theorem mem_operands {es : List Expr} {o : Operand} :
    o ∈ operands d es ↔ ∃ e ∈ es, operand d e = o := by
  rw [← List.map_id (operands d es), RowValue.map_operands, List.mem_map]
  rfl

theorem querySpec_spec (s : QuerySpec) : ∃ out,
    querySpec d none s = .spec out s.isMovable (fromClause d (tableGroups d s.roots))
      (s.movedRestriction d) (operands d s.columns) := by
  obtain ⟨distinct, items, roots, restriction, groupBy, having, keys, offset, fetch, kind⟩ := s
  rw [QuerySpec.columns, ← selections_operands]
  cases restriction <;> cases offset <;> cases fetch <;> exact ⟨_, rfl⟩

end Render

/-- The comparisons of a tuple with the rows of a query that are written as the existence of a row,
or of none. An intersection takes the place of a comparison by distinctness. -/
inductive Emulation (d : Dialect) (ls : List Expr) (s : QuerySpec) :
    ComparisonOperator → Quantifier → Bool → Output → Prop
  | quantified (op : ComparisonOperator) (quantifier : Quantifier)
      (hcapability : d.capabilities.rowValueInQuantified = false)
      (hrule : op.isDistinctness = true → d.strategies.comparison ≠ .intersect) :
      Emulation d ls s op quantifier false
        (Render.predicate d (.comparison (.tuple ls) op (.quantified quantifier (.spec s))))
  | subquery (op : ComparisonOperator)
      (hcapability : d.capabilities.rowValueConstructor = false)
      (hrule : op.isDistinctness = true → d.strategies.comparison ≠ .intersect) :
      Emulation d ls s op .any false
        (Render.predicate d (.comparison (.tuple ls) op (.subquery (.spec s))))
  | membership (negated : Bool) (hcapability : d.capabilities.rowValueInQuantified = false) :
      Emulation d ls s .equal .any negated
        (Render.predicate d (.inSubquery (.tuple ls) (.spec s) negated))

namespace Emulation

variable {d : Dialect} {ls : List Expr} {s : QuerySpec} {op : ComparisonOperator}
  {quantifier : Quantifier} {negated : Bool} {o : Output}

theorem rule (h : Emulation d ls s op quantifier negated o) (hop : op.isDistinctness = true) :
    d.strategies.comparison ≠ .intersect := by
  cases h with
  | quantified _ _ _ hrule => exact hrule hop
  | subquery _ _ hrule => exact hrule hop
  | membership => cases hop

theorem eq_subquery (h : Emulation d ls s op quantifier negated o) :
    o = Comparison.subquery d (Render.operands d ls) (Render.querySpec d none s) op quantifier
      negated := by
  cases h with
  | quantified _ _ hcapability hrule =>
      rw [Render.predicate, Render.operand, Render.operand, Render.query,
        Comparison.render_standard d rfl hrule, Comparison.standard, hcapability]
      rfl
  | subquery _ hcapability hrule =>
      rw [Render.predicate, Render.operand, Render.operand, Render.query,
        Comparison.render_standard d rfl hrule, Comparison.standard, hcapability]
      rfl
  | membership _ hcapability =>
      rw [Render.predicate, Render.operand, Render.query, Render.inSubquery, hcapability]
      rfl

/-- The tuple and the rows of the query consist of values, and the tuple of one at least. -/
structure OfValues (ls : List Expr) (s : QuerySpec) : Prop where
  nonempty : ls ≠ []
  left : ∀ e ∈ ls, e.isTuple = false
  right : ∀ e ∈ s.columns, e.isTuple = false

theorem isTuple_operands {es : List Expr} (h : ∀ e ∈ es, e.isTuple = false) :
    ∀ e ∈ Render.operands d es, e.isTuple = false := by
  intro e he
  obtain ⟨x, hx, rfl⟩ := Render.mem_operands.1 he
  rw [RowValue.isTuple_operand, h x hx]

theorem movedRestriction_within : ∀ r, s.movedRestriction d = some r → r.Within Lexeme.ofCondition := by
  intro r hr
  rw [QuerySpec.movedRestriction] at hr
  split at hr
  · split at hr
    · cases hr
    · cases hr
      exact Render.predicate_within d _
  · cases hr

/-- The where clause of the query is moved into the comparison. -/
theorem movedRestriction_truth (V : Valuation α)
    (hok : ∀ r, s.movedRestriction d = some r → r.failure = none) :
    (((s.movedRestriction d).elim .true fun r => Condition.partsTruth V r.parts) == .true) =
      s.filters d V := by
  cases hrestriction : s.restriction with
  | none => simp [QuerySpec.movedRestriction, QuerySpec.filters, hrestriction]
  | some p =>
      cases hempty : p.isEmpty with
      | true => simp [QuerySpec.movedRestriction, QuerySpec.filters, hrestriction, hempty]
      | false =>
          have hmoved : s.movedRestriction d = some (Render.predicate d p) := by
            simp [QuerySpec.movedRestriction, hrestriction, hempty]
          rw [hmoved, Option.elim_some, Render.partsTruth_predicate d V p (hok _ hmoved)]
          simp [QuerySpec.filters, hrestriction, hempty]

theorem failure_parts (h : Emulation d ls s op quantifier negated o) (hok : o.failure = none) :
    (∀ r, s.movedRestriction d = some r → r.failure = none) ∧
      (Comparison.selectTuple d (Render.operands d s.columns) (Render.operands d ls)
        op.invert).failure = none := by
  obtain ⟨out, hspec⟩ := Render.querySpec_spec d s
  rw [h.eq_subquery, hspec] at hok
  exact Comparison.failure_subquery hok

theorem isDistinctness_invert : op.invert.isDistinctness = op.isDistinctness := by
  cases op <;> rfl

theorem invert_of_isDistinctness (hop : op.isDistinctness = true) : op.invert = op := by
  cases op <;> first | rfl | cases hop

/-- A comparison is written out where the parts of it are rendered. -/
theorem rendered (h : Emulation d ls s op quantifier negated o) (hmovable : s.isMovable = true)
    (hlen : (Render.operands d ls).length = (Render.operands d s.columns).length)
    (hsource : (Render.fromClause d (Render.tableGroups d s.roots)).failure = none)
    (hrestriction : ∀ r, s.movedRestriction d = some r → r.failure = none)
    (hmatch : (Comparison.selectTuple d (Render.operands d s.columns) (Render.operands d ls)
      op.invert).failure = none) : o.failure = none := by
  obtain ⟨out, hspec⟩ := Render.querySpec_spec d s
  rw [h.eq_subquery, hspec, hmovable]
  exact Comparison.subquery_complete quantifier negated hlen hsource hrestriction hmatch

theorem complete (h : Emulation d ls s op quantifier negated o) (hop : op.isDistinctness = false)
    (hmovable : s.isMovable = true) (hrows : Comparable d ls s.columns)
    (hsource : (Render.fromClause d (Render.tableGroups d s.roots)).failure = none)
    (hrestriction : ∀ r, s.movedRestriction d = some r → r.failure = none) : o.failure = none := by
  have hlen : (Render.operands d ls).length = (Render.operands d s.columns).length := by
    rw [Render.length_operands, Render.length_operands, hrows.arity]
  have hne : Render.operands d s.columns ≠ [] := by
    rw [← List.length_pos_iff, ← hlen, Render.length_operands]
    exact List.length_pos_iff.2 hrows.nonempty
  have houtputs {es : List Expr} (hes : ∀ e ∈ es, (Render.expression d e).failure = none) :
      ∀ o ∈ operandOutputs (Render.operands d es), o.failure = none := by
    rw [Render.operandOutputs_operands]
    simpa using hes
  have hmatch := Comparison.failure_selectTuple (d := d) (isDistinctness_invert.trans hop) hne
    hlen.symm (houtputs hrows.right) (houtputs hrows.left)
  exact h.rendered hmovable hlen hsource hrestriction hmatch

/-- The value of the emulation, by the rows of the tables. -/
theorem existence?_eq (h : Emulation d ls s op quantifier negated o) (hok : o.failure = none)
    (T : Tables α) : o.existence? T = some (negated ^^ ((quantifier == .all) ^^
      (T (s.tablesText d)).any (Comparison.admits d (s.movedRestriction d)
        (Render.operands d s.columns) (Render.operands d ls) op (quantifier == .all)))) := by
  obtain ⟨out, hspec⟩ := Render.querySpec_spec d s
  have hsource := reading.fromClause d (reading.tableGroupsHold d s.roots)
  rw [h.eq_subquery, hspec] at hok ⊢
  exact Comparison.existence?_subquery T hsource movedRestriction_within
    (reading.operandsHolds d _) (reading.operandsHolds d ls) hok

omit [LinearOrder α] in
theorem row_operands (V : Valuation α) (es : List Expr) :
    (operandOutputs (Render.operands d es)).map V.of = V.row d es := by
  rw [Render.operandOutputs_operands, List.map_map]
  rfl

/-- Inside the query a row is compared with the tuple as the tuple is with the row outside it. -/
theorem similar_match {R : Truth → Truth → Prop} (hR : Truth.Similarity R)
    (h : Emulation d ls s op quantifier negated o) (hls : ls ≠ [])
    (hvalues : op.isDistinctness = true → OfValues ls s)
    (hnull : op.isDistinctness = true → Comparison.writesRows d = false →
      d.capabilities.distinctFrom = .emulated →
      ∀ x y : Option α, R (op.invert.nullTestsTruth x y) (op.invert.truth x y))
    (hok : o.failure = none) (V : Valuation α) :
    R (V.factorTruth (Comparison.selectTuple d (Render.operands d s.columns)
      (Render.operands d ls) op.invert).parts) (Row.truth op (V.row d ls) (V.row d s.columns)) := by
  have hne : Render.operands d ls ≠ [] := by
    rw [← List.length_pos_iff, Render.length_operands]
    exact List.length_pos_iff.2 hls
  have hmatch := Comparison.similar_selectTuple V d hR op.invert
    (fun hop => h.rule (isDistinctness_invert ▸ hop))
    (fun hop => hnull (isDistinctness_invert ▸ hop)) (reading.operandsHolds d s.columns)
    (reading.operandsHolds d ls)
    (fun hop => isTuple_operands (hvalues (isDistinctness_invert ▸ hop)).right)
    (fun hop => isTuple_operands (hvalues (isDistinctness_invert ▸ hop)).left)
    hne (h.failure_parts hok).2
  rwa [row_operands, row_operands, Row.truth_invert] at hmatch

section

variable (h : Emulation d ls s op quantifier negated o) (hok : o.failure = none) (hls : ls ≠ [])
  (hvalues : op.isDistinctness = true → OfValues ls s) (V : Valuation α)

include h hok hls hvalues

theorem admits_any : Comparison.admits d (s.movedRestriction d) (Render.operands d s.columns)
      (Render.operands d ls) op false V =
    (s.filters d V && Row.truth op (V.row d ls) (V.row d s.columns) == .true) := by
  have hmatch := h.similar_match Truth.similarity_agrees hls hvalues (fun hop _ _ =>
    ComparisonOperator.agrees_nullTests (isDistinctness_invert.trans hop)) hok V
  rw [← movedRestriction_truth V (h.failure_parts hok).1, Comparison.admits, if_neg (by simp),
    Bool.eq_iff_iff, beq_iff_eq, Truth.and_eq_true, Bool.and_eq_true, beq_iff_eq, beq_iff_eq]
  exact and_congr_right fun _ => hmatch

theorem admits_all (hnull : op.isDistinctness = true → d.testsNulls = false) :
    Comparison.admits d (s.movedRestriction d) (Render.operands d s.columns)
      (Render.operands d ls) op true V =
    (s.filters d V && Row.truth op (V.row d ls) (V.row d s.columns) == .false) := by
  have hmatch := h.similar_match Truth.similarity_eq hls hvalues (fun hop hrows hemulated =>
    absurd (hnull hop) (by simp [Dialect.testsNulls, hrows, hemulated])) hok V
  rw [← movedRestriction_truth V (h.failure_parts hok).1, Comparison.admits, if_pos rfl, hmatch,
    Bool.eq_iff_iff, beq_iff_eq, Truth.and_eq_true, Truth.not_eq_true, Bool.and_eq_true,
    beq_iff_eq, beq_iff_eq]

end

section

variable (h : Emulation d ls s op quantifier negated o) (hok : o.failure = none)
  (hvalues : OfValues ls s) (hs : s.restriction ≠ some (.junction .disjunction [])) (V : Valuation α)

include h hok hvalues hs

/-- A row is found that the restriction keeps and that makes the comparison true. -/
theorem admits_match : Comparison.admits d (s.movedRestriction d) (Render.operands d s.columns)
      (Render.operands d ls) op false V = true ↔
    s.Keeps d V ∧ Row.truth op (V.row d ls) (V.row d s.columns) = .true := by
  rw [h.admits_any hok hvalues.nonempty (fun _ => hvalues), Bool.and_eq_true, beq_iff_eq,
    QuerySpec.filters_iff V hs]

/-- A row is found that the restriction keeps and that makes the comparison false. -/
theorem admits_mismatch (hop : op.isDistinctness = true → d.testsNulls = false) :
    Comparison.admits d (s.movedRestriction d) (Render.operands d s.columns)
      (Render.operands d ls) op true V = true ↔
    s.Keeps d V ∧ Row.truth op (V.row d ls) (V.row d s.columns) = .false := by
  rw [h.admits_all hok hvalues.nonempty (fun _ => hvalues) V hop, Bool.and_eq_true, beq_iff_eq,
    QuerySpec.filters_iff V hs]

end

variable {outer : List (Option α)}

theorem existence?_all (h : Emulation d ls s op .all false o) (hok : o.failure = none)
    (hop : op.isDistinctness = true → d.testsNulls = false) (hvalues : OfValues ls s)
    (hs : s.restriction ≠ some (.junction .disjunction [])) (T : Tables α)
    (houter : ∀ V ∈ T (s.tablesText d), V.row d ls = outer) :
    ∃ found, o.existence? T = some found ∧ (found = true ↔ ∀ V ∈ T (s.tablesText d),
      s.Keeps d V → Row.truth op outer (V.row d s.columns) ≠ .false) := by
  refine ⟨_, h.existence?_eq hok T, ?_⟩
  have hall : (Quantifier.all == .all) = true := rfl
  rw [hall, Bool.false_xor, Bool.true_xor, Bool.not_eq_true', List.any_eq_false]
  refine forall₂_congr fun V hV => ?_
  rw [h.admits_mismatch hok hvalues hs V hop, houter V hV, not_and]

theorem existence?_notMember (h : Emulation d ls s op .any true o) (hok : o.failure = none)
    (hvalues : OfValues ls s) (hs : s.restriction ≠ some (.junction .disjunction []))
    (T : Tables α) (houter : ∀ V ∈ T (s.tablesText d), V.row d ls = outer) :
    ∃ found, o.existence? T = some found ∧ (found = true ↔ ∀ V ∈ T (s.tablesText d),
      s.Keeps d V → Row.truth op outer (V.row d s.columns) ≠ .true) := by
  refine ⟨_, h.existence?_eq hok T, ?_⟩
  have hall : (Quantifier.any == .all) = false := rfl
  rw [hall, Bool.false_xor, Bool.true_xor, Bool.not_eq_true', List.any_eq_false]
  refine forall₂_congr fun V hV => ?_
  rw [h.admits_match hok hvalues hs V, houter V hV, not_and]

def pair : List Expr := [.column none "a", .column none "b"]

/-- The query `select x, y from t where z is not null`. -/
def pairs : QuerySpec :=
  (((QuerySpec.empty.select (.column none "x") none).select (.column none "y") none).addRoot
    ⟨.named ⟨none, "t"⟩, none, []⟩).restrict (.nullCheck (.column none "z") true)

theorem ofValues_pairs : OfValues pair pairs :=
  ⟨by simp [pair], by decide, by decide⟩

theorem failure_pairs {op : ComparisonOperator} {quantifier : Quantifier} {negated : Bool}
    {o : Output} (h : Emulation .timesten pair pairs op quantifier negated o)
    (hop : op.isDistinctness = false) : o.failure = none := by
  have hrows : Comparable .timesten pair pairs.columns :=
    ⟨by simp [pair], rfl, by decide, by decide⟩
  have hrestriction : ∀ r, pairs.movedRestriction .timesten = some r → r.failure = none := by
    intro r hr
    cases hr
    decide
  exact h.complete hop rfl hrows (by decide) hrestriction

theorem restriction_pairs : pairs.restriction ≠ some (.junction .disjunction []) := by
  intro h
  cases h

end Emulation

/-- The columns have the values given for their names, or none. -/
def Valuation.ofColumns (values : List (String × Nat)) : Valuation Nat :=
  ⟨fun text => (values.find? fun c => text == [.unit (.name c.1)]).map (·.2), fun _ => .unknown⟩

open Emulation

variable {d : Dialect} {ls : List Expr} {s : QuerySpec}

/-- A comparison with some row of a query, equality and membership among them, is true exactly when
a row that satisfies the restriction makes the comparison true. -/
theorem someRow_emulation {op : ComparisonOperator} {o : Output}
    (h : Emulation d ls s op .any false o) (hok : o.failure = none)
    (hvalues : OfValues ls s) (hs : s.restriction ≠ some (.junction .disjunction []))
    (T : Tables α) (outer : List (Option α)) (houter : ∀ V ∈ T (s.tablesText d), V.row d ls = outer) :
    ∃ found, o.existence? T = some found ∧ (found = true ↔ ∃ V ∈ T (s.tablesText d),
      s.Keeps d V ∧ Row.truth op outer (V.row d s.columns) = .true) := by
  refine ⟨_, h.existence?_eq hok T, ?_⟩
  have hall : (Quantifier.any == .all) = false := rfl
  rw [hall, Bool.false_xor, Bool.false_xor, List.any_eq_true]
  refine exists_congr fun V => and_congr_right fun hV => ?_
  rw [← houter V hV]
  exact h.admits_match hok hvalues hs V

/-- A null of the tuple leaves the first row unknown, and the next is greater by its first value.
Without that row, or where the restriction drops it, there is none. -/
theorem someRow_emulation_null :
    let o := Render.predicate .timesten
      (.comparison (.tuple pair) .lessThan (.quantified .any (.spec pairs)))
    let unknown := Valuation.ofColumns [("a", 1), ("x", 1), ("y", 7), ("z", 0)]
    let greater := Valuation.ofColumns [("a", 1), ("x", 2), ("z", 0)]
    let dropped := Valuation.ofColumns [("a", 1), ("x", 2)]
    o.failure = none ∧ o.existence? (fun _ => [unknown, greater]) = some true ∧
      o.existence? (fun _ => [unknown, dropped]) = some false := by
  intro o unknown greater dropped
  have h : Emulation .timesten pair pairs .lessThan .any false o :=
    .quantified .lessThan .any rfl nofun
  have hok : o.failure = none := failure_pairs h rfl
  refine ⟨hok, ?_, ?_⟩
  · obtain ⟨found, hfound, hiff⟩ := someRow_emulation h hok ofValues_pairs restriction_pairs
      (fun _ => [unknown, greater]) [some 1, none] (by decide)
    rw [hfound, hiff.2 (by decide)]
  · obtain ⟨found, hfound, hiff⟩ := someRow_emulation h hok ofValues_pairs restriction_pairs
      (fun _ => [unknown, dropped]) [some 1, none] (by decide)
    rw [hfound, Bool.eq_false_iff.2 (mt hiff.1 (by decide))]

/-- A comparison with all rows of a query is true exactly when no row that satisfies the restriction
makes it false, and a tuple is no member exactly when no such row makes the equality true. A row
that nulls leave unknown counts neither way. -/
theorem everyRow_emulation (hvalues : OfValues ls s)
    (hs : s.restriction ≠ some (.junction .disjunction [])) (T : Tables α) (outer : List (Option α))
    (houter : ∀ V ∈ T (s.tablesText d), V.row d ls = outer) :
    (∀ op o, Emulation d ls s op .all false o → o.failure = none →
      (op.isDistinctness = true → d.testsNulls = false) →
      ∃ found, o.existence? T = some found ∧ (found = true ↔ ∀ V ∈ T (s.tablesText d),
        s.Keeps d V → Row.truth op outer (V.row d s.columns) ≠ .false)) ∧
    ∀ o, Emulation d ls s .equal .any true o → o.failure = none →
      ∃ found, o.existence? T = some found ∧ (found = true ↔ ∀ V ∈ T (s.tablesText d),
        s.Keeps d V → Row.truth .equal outer (V.row d s.columns) ≠ .true) :=
  ⟨fun _ _ h hok hop => h.existence?_all hok hop hvalues hs T houter,
    fun _ h hok => h.existence?_notMember hok hvalues hs T houter⟩

theorem everyRow_emulation_null :
    let quantified := Render.predicate .timesten
      (.comparison (.tuple pair) .lessThan (.quantified .all (.spec pairs)))
    let excluded := Render.predicate .timesten (.inSubquery (.tuple pair) (.spec pairs) true)
    let greater := Valuation.ofColumns [("a", 1), ("x", 2), ("z", 0)]
    let less := Valuation.ofColumns [("a", 1), ("x", 0), ("z", 0)]
    quantified.existence? (fun _ => [greater]) = some true ∧
      quantified.existence? (fun _ => [greater, less]) = some false ∧
      excluded.existence? (fun _ => [greater, less]) = some true := by
  intro quantified excluded greater less
  have hquantified : Emulation .timesten pair pairs .lessThan .all false quantified :=
    .quantified .lessThan .all rfl nofun
  have hexcluded : Emulation .timesten pair pairs .equal .any true excluded := .membership true rfl
  have hok := failure_pairs hquantified rfl
  have hexcludedok := failure_pairs hexcluded rfl
  obtain ⟨hall, -⟩ := everyRow_emulation (d := .timesten) ofValues_pairs restriction_pairs
    (fun _ => [greater]) [some 1, none] (by decide)
  obtain ⟨hboth, hnone⟩ := everyRow_emulation (d := .timesten) ofValues_pairs restriction_pairs
    (fun _ => [greater, less]) [some 1, none] (by decide)
  obtain ⟨found, hfound, hiff⟩ := hall _ _ hquantified hok nofun
  obtain ⟨foundBoth, hfoundBoth, hiffBoth⟩ := hboth _ _ hquantified hok nofun
  obtain ⟨foundNone, hfoundNone, hiffNone⟩ := hnone _ hexcluded hexcludedok
  refine ⟨?_, ?_, ?_⟩
  · rw [hfound, hiff.2 (by decide)]
  · rw [hfoundBoth, Bool.eq_false_iff.2 (mt hiffBoth.1 (by decide))]
  · rw [hfoundNone, hiffNone.2 (by decide)]

/-- A row that a null of the tuple leaves unknown makes neither comparison true, and the texts that
take their places are. -/
theorem everyRow_unknown :
    let quantified := Render.predicate .timesten
      (.comparison (.tuple pair) .equal (.quantified .all (.spec pairs)))
    let excluded := Render.predicate .timesten (.inSubquery (.tuple pair) (.spec pairs) true)
    let row := Row.truth .equal (RowValue.nullColumn.row .timesten pair)
      (RowValue.nullColumn.row .timesten pairs.columns)
    pairs.Keeps .timesten RowValue.nullColumn ∧
      quantified.failure = none ∧
      ¬(quantified.existence? (fun _ => [RowValue.nullColumn]) = some true ↔ row = .true) ∧
      excluded.failure = none ∧
      ¬(excluded.existence? (fun _ => [RowValue.nullColumn]) = some true ↔ row = .false) := by
  intro quantified excluded row
  have hquantified : Emulation .timesten pair pairs .equal .all false quantified :=
    .quantified .equal .all rfl nofun
  have hexcluded : Emulation .timesten pair pairs .equal .any true excluded := .membership true rfl
  have hquantifiedok := failure_pairs hquantified rfl
  have hexcludedok := failure_pairs hexcluded rfl
  have hrow : row = .unknown := by decide
  have houter : ∀ V ∈ [RowValue.nullColumn], V.row .timesten pair = [some 1, none] := by decide
  obtain ⟨found, hfound, hiff⟩ := hquantified.existence?_all hquantifiedok nofun ofValues_pairs
    restriction_pairs (fun _ => [RowValue.nullColumn]) houter
  obtain ⟨foundNone, hfoundNone, hiffNone⟩ := hexcluded.existence?_notMember hexcludedok
    ofValues_pairs restriction_pairs (fun _ => [RowValue.nullColumn]) houter
  refine ⟨by decide, hquantifiedok, ?_, hexcludedok, ?_⟩
  · rw [hfound, hiff.2 (by decide), hrow]
    decide
  · rw [hfoundNone, hiffNone.2 (by decide), hrow]
    decide

end DialectSql
