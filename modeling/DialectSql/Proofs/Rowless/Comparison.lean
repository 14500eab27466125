import DialectSql.Proofs.Rendered.Predicate
import DialectSql.Proofs.Rowless.Text

namespace DialectSql

/-- Rows are not understood anywhere. -/
structure Dialect.LacksRows (d : Dialect) : Prop where
  constructor : d.capabilities.rowValueConstructor = false
  lists : d.capabilities.rowValueInList = false
  quantified : d.capabilities.rowValueInQuantified = false

instance (d : Dialect) : Decidable d.LacksRows :=
  decidable_of_iff (d.capabilities.rowValueConstructor = false ∧
      d.capabilities.rowValueInList = false ∧ d.capabilities.rowValueInQuantified = false)
    ⟨fun h => ⟨h.1, h.2.1, h.2.2⟩, fun h => ⟨h.constructor, h.lists, h.quantified⟩⟩

theorem Dialect.LacksRows.writesRows {d : Dialect} (h : d.LacksRows) :
    Comparison.writesRows d = false := by
  simp [Comparison.writesRows, h.constructor]

namespace Comparison

/-- A test of distinctness that is written as such tests of the elements. -/
def comparesPairs (d : Dialect) (op : ComparisonOperator) : Bool :=
  op.isDistinctness && d.strategies.comparison != .intersect

/-- A test of distinctness that a set operation takes the place of. -/
def intersects (d : Dialect) (op : ComparisonOperator) : Bool :=
  op.isDistinctness && d.strategies.comparison == .intersect

theorem checkArity_tuples (d : Dialect) (ls rs : List Operand) (op : ComparisonOperator)
    (bounded : Bool) :
    checkArity ls.length rs.length ++ tuples d ls rs op bounded = tuples d ls rs op bounded := by
  rw [tuples.eq_def, ← Output.append_assoc]
  by_cases h : ls.length = rs.length
  · rw [h, Output.checkArity_self, Output.empty_append]
  · have hfail : checkArity ls.length rs.length = .fail (.tupleArity ls.length rs.length) := by
      simp [checkArity, Output.require, h]
    rw [hfail, Output.append_of_failure rfl (.fail _)]

/-- A comparison by the standard rule, with rows written out. -/
def expanded (d : Dialect) (l : Operand) (op : ComparisonOperator) (r : Operand) : Output :=
  match l, r with
  | .tuple ls, .tuple rs => tuples d ls rs op (d.strategies.comparison != .lexicographic)
  | .tuple ls, .subquery q => subquery d ls q op .any false
  | .tuple ls, .quantified quantifier q => subquery d ls q op quantifier false
  | .tuple ls, .scalar _ => .fail (.tupleArity ls.length 1)
  | _, .tuple rs => .fail (.tupleArity 1 rs.length)
  | _, .scalar _ =>
    if op.isDistinctness && d.capabilities.distinctFrom == .emulated then
      distinctByNullTests l op r
    else plain l op r
  | _, _ => plain l op r

theorem standard_lacking {d : Dialect} (hd : d.LacksRows) (l : Operand) (op : ComparisonOperator)
    (r : Operand) (h : d.strategies.comparison = .lexicographic → (l.isTuple && r.isTuple) = false) :
    standard d l op r = expanded d l op r := by
  have hbounded : (l.isTuple && r.isTuple) = true →
      (d.strategies.comparison != .lexicographic) = true := fun htuples =>
    bne_iff_ne.2 fun hrule => by simp [h hrule] at htuples
  cases l <;> cases r <;> rw [standard.eq_def, expanded.eq_def] <;>
    simp [hd.constructor, hd.quantified, checkArity_tuples]
  rw [hbounded rfl]

/-- A comparison without row values. A set operation compares the elements, whatever they are. -/
theorem render_lacking {d : Dialect} (hd : d.LacksRows) (l : Operand) (op : ComparisonOperator)
    (r : Operand) : render d l op r =
      if intersects d op then distinctByIntersect d l.elements op r.elements
      else expanded d l op r := by
  rw [render.eq_def, intersects]
  cases hrule : d.strategies.comparison with
  | standard => simpa using standard_lacking hd l op r (by simp [hrule])
  | intersect =>
      cases hop : op.isDistinctness with
      | true => simp [intersect.eq_def, hop]
      | false => simpa [intersect.eq_def, hop] using standard_lacking hd l op r (by simp [hrule])
  | lexicographic =>
      have hvalue (h : (l.isTuple && r.isTuple) = false) :
          render d l op r = expanded d l op r := by
        rw [render_value hrule h, standard_lacking hd l op r fun _ => h]
      rw [render.eq_def, hrule] at hvalue
      cases l with
      | tuple ls =>
          cases r with
          | tuple rs => simp [expanded, hrule]
          | _ => simpa using hvalue rfl
      | _ => simpa using hvalue rfl

end Comparison

namespace Output.Keeps

open Comparison

variable {listing : Bool} {l r : Operand} {ls rs : List Operand}

theorem operator (op : ComparisonOperator) : (Output.word op.sql).Rowless := by
  cases op <;> exact word rfl

theorem plain (op : ComparisonOperator) (hl : l.output.Rowless) (hr : r.output.Rowless) :
    (Comparison.plain l op r).Rowless :=
  (hl.append (operator op)).append hr

theorem nullTest (negated : Bool) (hl : l.output.Rowless) :
    (Comparison.nullTest l negated).Rowless := by
  cases negated <;> exact hl.append (word rfl)

theorem distinctByNullTests (op : ComparisonOperator) (hl : l.output.Rowless)
    (hr : r.output.Rowless) : (Comparison.distinctByNullTests l op r).Rowless := by
  have hboth {o : Output} (a b : Bool) (h : o.Rowless) :
      (o ++ .word " or " ++ Comparison.nullTest l a ++ .word " and " ++
        Comparison.nullTest r b).Rowless :=
    (((h.append (word rfl)).append (nullTest a hl)).append (word rfl)).append (nullTest b hr)
  rw [Comparison.distinctByNullTests]
  split
  · exact parenthesized (hboth true false (hboth false true (plain .notEqual hl hr)))
  · exact parenthesized (hboth false false (plain .equal hl hr))

theorem outputs {os : List Operand} (h : ∀ e ∈ os, e.output.Rowless) :
    ∀ o ∈ operandOutputs os, o.Rowless := by
  induction os with
  | nil => nofun
  | cons e os ih =>
      rw [operandOutputs, List.forall_mem_cons]
      rw [List.forall_mem_cons] at h
      exact ⟨h.1, ih h.2⟩

theorem opens_select : Opens true "exists (select " := fun _ => ⟨_, _, rfl, fun _ => rfl⟩

theorem opens_existence : Opens true "exists (select 1" := fun _ => ⟨_, _, rfl, fun _ => rfl⟩

theorem opens_and : Opens false " and (" := fun _ => ⟨_, _, rfl, nofun⟩

section

variable (d : Dialect) (op : ComparisonOperator) (hl : ∀ l ∈ ls, l.output.Rowless)
  (hr : ∀ r ∈ rs, r.output.Rowless)

include hl hr

theorem plainEach : ∀ o ∈ Comparison.plainEach op ls rs, o.Rowless := by
  rw [plainEach_eq]
  refine List.forall_mem_map.2 fun p hp => ?_
  obtain ⟨hleft, hright⟩ := List.of_mem_zip hp
  exact plain op (hl _ hleft) (hr _ hright)

theorem lexicographic : (Comparison.lexicographic op ls rs).Rowless := by
  fun_induction Comparison.lexicographic op ls rs with
  | case1 l r rs => exact plain op (hl l (by simp)) (hr r (by simp))
  | case2 l ls r rs hne ih =>
      rw [List.forall_mem_cons] at hl hr
      have hfirst := ((plain op.sharper hl.1 hr.1).append (word (w := " or ") rfl)).append
        (plain .equal hl.1 hr.1)
      exact append_enclosed hfirst opens_and (ih hl.2 hr.2)
  | case3 ls rs hone hmore => exact empty

theorem leadingBound : (Comparison.leadingBound op ls rs).Rowless := by
  fun_induction Comparison.leadingBound op ls rs with
  | case1 l r rs => exact plain op (hl l (by simp)) (hr r (by simp))
  | case2 l ls r rs hne ih =>
      rw [List.forall_mem_cons] at hl hr
      have hrest := ((plain op.sharper hl.1 hr.1).append (word (w := " or ") rfl)).append
        (ih hl.2 hr.2)
      have hall := (plain op.broader hl.1 hr.1).append (enclosed opens_and hrest)
      simpa only [Output.append_assoc] using hall
  | case3 ls rs hone hmore => exact empty

theorem distinctByIntersect : (Comparison.distinctByIntersect d ls op rs).Rowless := by
  rw [Comparison.distinctByIntersect]
  refine (checkArity _ _).append ?_
  split
  · exact fail _
  · rename_i dual _
    have hfrom : Keeps true (.word " from " ++ .name dual) := (word rfl).append (name dual)
    have hrows := (((list (outputs hl)).append hfrom).append
      (word (w := " intersect select ") rfl)).append ((list (outputs hr)).append hfrom)
    have hnot : (Output.when (op == .distinct) (.word "not ")).Rowless := when _ (word rfl)
    have hall := hnot.append (enclosed opens_select hrows)
    simpa only [Output.append_assoc] using hall

omit hl hr in
/-- Two rows by their elements. -/
theorem tuples (bounded : Bool)
    (hordinary : op.isDistinctness = false → ∀ e ∈ ls ++ rs, e.output.Rowless)
    (hdistinct : op.isDistinctness = true → ∀ p ∈ ls.zip rs, (render d p.1 op p.2).Rowless) :
    (Comparison.tuples d ls rs op bounded).Rowless := by
  have heach : op.isDistinctness = true → ∀ o ∈ renderEach d op ls rs, o.Rowless := by
    intro hop
    rw [renderEach_eq]
    exact List.forall_mem_map.2 (hdistinct hop)
  simp only [List.forall_mem_append] at hordinary
  rw [Comparison.tuples.eq_def]
  refine (checkArity _ _).append ?_
  split
  · exact fail _
  refine parenthesized ?_
  cases op with
  | equal | notEqual =>
      exact joined rfl (plainEach _ (hordinary rfl).1 (hordinary rfl).2)
  | distinct | notDistinct => exact joined rfl (heach rfl)
  | _ =>
      cases bounded with
      | true => exact leadingBound _ (hordinary rfl).1 (hordinary rfl).2
      | false => exact lexicographic _ (hordinary rfl).1 (hordinary rfl).2

end

/-- A row that is compared with the rows of a query inside it. -/
theorem subquery {d : Dialect} {out source : Output} {movable : Bool} {restriction : Option Output}
    {selections : List Operand} {op : ComparisonOperator} (quantifier : Quantifier) (negated : Bool)
    (hsource : source.Keeps true) (hrestriction : ∀ r, restriction = some r → r.Rowless)
    (hmatch : (selectTuple d selections ls op.invert).Rowless) :
    (Comparison.subquery d ls (.spec out movable source restriction selections) op quantifier
      negated).Rowless := by
  cases movable with
  | false =>
      rw [Comparison.subquery.eq_def]
      exact fail _
  | true =>
      have hnot (listing condition : Bool) : Keeps listing (.when condition (.word "not ")) :=
        when condition (listed (word rfl))
      have hcondition : Keeps true (rowCondition d restriction selections ls op
          (quantifier == .all)) := by
        refine append ?_ ((hnot _ _).append (listed hmatch))
        cases restriction with
        | none => exact empty
        | some r => exact (parenthesized (hrestriction r rfl)).append (word rfl)
      have hexisting : (Output.existing source (rowCondition d restriction selections ls op
          (quantifier == .all))).Rowless :=
        enclosed opens_existence ((hsource.append (word rfl)).append hcondition)
      rw [subquery_movable]
      exact (checkArity _ _).append ((hnot _ _).append ((hnot _ _).append hexisting))

end Output.Keeps

end DialectSql
