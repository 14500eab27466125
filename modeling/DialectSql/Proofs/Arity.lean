import DialectSql.Proofs.Rendered.Traversal

namespace DialectSql

open Output

namespace Expr

/-- A single value is a row of one. -/
def arity (e : Expr) : Nat := e.elements.length

def isQuery : Expr → Bool
  | .subquery _ | .quantified .. => true
  | _ => false

theorem isScalar_of {e : Expr} (ht : e.isTuple = false) (hq : e.isQuery = false) :
    e.isScalar = true := by
  cases e with
  | tuple es => cases ht
  | subquery q | quantified _ q => cases hq
  | _ => rfl

theorem arity_of_isScalar {e : Expr} (h : e.isScalar = true) : e.arity = 1 := by
  cases e <;> first | rfl | cases h

end Expr

namespace Render

variable (d : Dialect)

theorem length_elements (e : Expr) : (operand d e).elements.length = e.arity := by
  rw [elements_operand, length_operands, Expr.arity]

end Render

/-- The pairs of rows whose arities a predicate compares. The items of a list are held against a
tuple only, and the bounds of a range where the range is written out. -/
def Predicate.compared (d : Dialect) : Predicate → List (Expr × Expr)
  | .comparison lhs _ rhs => if lhs.isQuery || rhs.isQuery then [] else [(lhs, rhs)]
  | .inList e list _ => if e.isTuple then list.map fun i => (e, i) else []
  | .between e low high _ =>
    if (e.isTuple || low.isTuple || high.isTuple) && !d.capabilities.rowValueConstructor then
      [(e, low), (e, high)]
    else []
  | _ => []

def Predicate.Aligned (d : Dialect) (p : Predicate) : Prop :=
  ∀ c ∈ p.compared d, c.1.arity = c.2.arity

/-- Nothing is rendered but the error of two arities that differ. -/
def Output.Misaligned (o : Output) : Prop := ∃ m n, m ≠ n ∧ o = .fail (.tupleArity m n)

namespace Output.Misaligned

variable {m n : Nat} {o : Output}

theorem append (h : o.Misaligned) (p : Output) : (o ++ p).Misaligned := by
  obtain ⟨m, n, hne, rfl⟩ := h
  exact ⟨m, n, hne, append_of_failure rfl p⟩

theorem checkArity (h : m ≠ n) : (checkArity m n).Misaligned :=
  ⟨m, n, h, by simp [DialectSql.checkArity, require, h]⟩

theorem checkArities {items : List Operand} (h : ∃ i ∈ items, n ≠ i.elements.length) :
    (Render.checkArities n items).Misaligned := by
  rw [Render.checkArities]
  induction items with
  | nil => simp at h
  | cons i items ih =>
      rw [List.map_cons, concat]
      by_cases hi : n = i.elements.length
      · rw [← hi, checkArity_self, empty_append]
        apply ih
        simpa [hi] using h
      · exact (checkArity hi).append _

end Output.Misaligned

namespace Comparison

variable (d : Dialect) {lhs rhs : Expr} (op : ComparisonOperator)

theorem misaligned_standard (hl : lhs.isQuery = false) (hr : rhs.isQuery = false)
    (h : lhs.arity ≠ rhs.arity) :
    (standard d (Render.operand d lhs) op (Render.operand d rhs)).Misaligned := by
  cases hlt : lhs.isTuple with
  | true =>
      rw [Expr.eq_tuple_elements hlt, Render.operand]
      cases hrt : rhs.isTuple with
      | true =>
          rw [Expr.eq_tuple_elements hrt, Render.operand, standard.eq_def]
          refine (Misaligned.checkArity ?_).append _
          rwa [Render.length_operands, Render.length_operands]
      | false =>
          have hscalar := Expr.isScalar_of hrt hr
          obtain ⟨o, ho⟩ := Render.operand_scalar d hscalar
          rw [ho, standard.eq_def]
          refine ⟨_, _, ?_, rfl⟩
          rw [Render.length_operands]
          rwa [Expr.arity_of_isScalar hscalar] at h
  | false =>
      have hscalar := Expr.isScalar_of hlt hl
      obtain ⟨o, ho⟩ := Render.operand_scalar d hscalar
      rw [Expr.arity_of_isScalar hscalar] at h
      cases hrt : rhs.isTuple with
      | true =>
          rw [ho, Expr.eq_tuple_elements hrt, Render.operand, standard.eq_def]
          refine ⟨_, _, ?_, rfl⟩
          rwa [Render.length_operands]
      | false => exact absurd (Expr.arity_of_isScalar (Expr.isScalar_of hrt hr)).symm h

theorem misaligned_render (hl : lhs.isQuery = false) (hr : rhs.isQuery = false)
    (h : lhs.arity ≠ rhs.arity) :
    (render d (Render.operand d lhs) op (Render.operand d rhs)).Misaligned := by
  have hstandard := misaligned_standard d op hl hr h
  rw [← Render.length_elements d, ← Render.length_elements d] at h
  rw [render.eq_def]
  split
  · exact hstandard
  · rw [intersect.eq_def]
    split
    · exact (Misaligned.checkArity h).append _
    · exact hstandard
  · split
    · rename_i ls rs hls hrs
      rw [hls, hrs] at h
      rw [tuples.eq_def]
      exact (Misaligned.checkArity h).append _
    · exact hstandard

end Comparison

/-- A predicate that holds rows of different arities against each other is not rendered. -/
theorem Predicate.misaligned {d : Dialect} {p : Predicate} (h : ¬p.Aligned d) :
    (Render.predicate d p).Misaligned := by
  obtain ⟨⟨l, r⟩, hmem, hne⟩ : ∃ c ∈ p.compared d, c.1.arity ≠ c.2.arity := by
    simpa only [Aligned, not_forall, exists_prop] using h
  cases p with
  | comparison lhs op rhs =>
      rw [compared] at hmem
      split at hmem
      · cases hmem
      · rename_i hqueries
        simp only [Bool.or_eq_true, not_or, Bool.not_eq_true] at hqueries
        obtain ⟨rfl, rfl⟩ := Prod.mk.inj (List.mem_singleton.1 hmem)
        exact Comparison.misaligned_render d op hqueries.1 hqueries.2 hne
  | inList e list negated =>
      rw [compared] at hmem
      split at hmem
      · rename_i htuple
        obtain ⟨i, hi, heq⟩ := List.mem_map.1 hmem
        obtain ⟨rfl, rfl⟩ := Prod.mk.inj heq
        have harities : ∃ i ∈ Render.operands d list,
            (Render.operands d e.elements).length ≠ i.elements.length := by
          refine ⟨_, Render.mem_operands.2 ⟨i, hi, rfl⟩, ?_⟩
          rwa [Render.length_elements, Render.length_operands]
        have hempty : (Render.operands d list).isEmpty = false := by
          cases list with
          | nil => cases hi
          | cons => rfl
        rw [Expr.eq_tuple_elements htuple, Render.predicate, Render.operand, Render.inList.eq_def, hempty]
        exact (Misaligned.checkArities harities).append _
      · cases hmem
  | between e low high negated =>
      rw [compared] at hmem
      split at hmem
      · rename_i hrows
        rw [Render.predicate, Render.between, RowValue.isTuple_operand, RowValue.isTuple_operand,
          RowValue.isTuple_operand, if_pos hrows, Output.append_assoc, Output.append_assoc,
          Render.length_elements, Render.length_elements, Render.length_elements]
        simp only [List.mem_cons, Prod.mk.injEq, List.not_mem_nil, or_false] at hmem
        by_cases hlow : e.arity = low.arity
        · rw [hlow, Output.checkArity_self, Output.empty_append, ← hlow]
          obtain ⟨rfl, rfl⟩ | ⟨rfl, rfl⟩ := hmem
          · exact absurd hlow hne
          · exact (Misaligned.checkArity hne).append _
        · exact (Misaligned.checkArity hlow).append _
      · cases hmem
  | _ => cases hmem

theorem Predicate.aligned {d : Dialect} {p : Predicate} (hok : (Render.predicate d p).failure = none) :
    p.Aligned d := by
  by_contra h
  obtain ⟨m, n, -, hfail⟩ := misaligned h
  rw [hfail] at hok
  cases hok

namespace Render

variable {d : Dialect} {e : Expr} {items : List Expr} (negated : Bool)

/-- Where row values are native, the bounds of a range may have any arities. -/
theorem failure_between_native (h : d.capabilities.rowValueConstructor = true)
    (e low high : Expr) : (predicate d (.between e low high negated)).failure = none ↔
      ∀ x ∈ [e, low, high], (expression d x).failure = none := by
  simp [predicate, between, h, expression, and_assoc]

/-- Behind a single value the items of a list may have any arities. -/
theorem failure_inList_value (he : e.isTuple = false) (hne : items ≠ []) :
    (predicate d (.inList e items negated)).failure = none ↔
      ∀ x ∈ e :: items, (expression d x).failure = none := by
  have hempty : (operands d items).isEmpty = false := by
    cases items with
    | nil => exact absurd rfl hne
    | cons => rfl
  simp [predicate, inList_eq, RowValue.isTuple_operand, he, hempty, operandOutputs_operands,
    Output.list, failure_joined_eq_none, expression]

/-- Where no columns are named, a row may have any number of values. -/
theorem failure_insertRow_unnamed (row : List Expr) :
    (insertRow d [] row).failure = none ↔ ∀ x ∈ row, (expression d x).failure = none := by
  simp [insertRow, operandOutputs_operands, Output.list, failure_joined_eq_none, expression]

end Render

/-- Each row of an insert has a value for each column that is named. -/
def Statement.RowsAligned : Statement → Prop
  | .insert ⟨_, columns, .values rows⟩ => columns ≠ [] → ∀ row ∈ rows, row.length = columns.length
  | _ => True

theorem Statement.misaligned_row {s : Statement} (h : ¬s.RowsAligned) (d : Dialect)
    (lock : LockOptions) : ∃ o : Output, o.Misaligned ∧ o.Inside (Render.statement d lock s) := by
  match s with
  | .select _ | .update _ | .delete _ | .insert ⟨_, _, .query _⟩ | .insert ⟨_, _, .defaultValues⟩ =>
      exact absurd trivial h
  | .insert ⟨target, columns, .values rows⟩ =>
      simp only [RowsAligned, not_forall] at h
      obtain ⟨hcolumns, row, hrow, hne⟩ := h
      refine ⟨Render.insertRow d columns row, ?_, ?_⟩
      · have hrequire : (Output.require (columns.isEmpty || row.length == columns.length)
            (.tupleArity columns.length row.length)).Misaligned :=
          ⟨_, _, Ne.symm hne, by simp [Output.require, hcolumns, hne]⟩
        exact hrequire.append _
      · have hlist := (Composed.list (rows.map (Render.insertRow d columns))).inside _
          (List.mem_map_of_mem hrow)
        exact Inside.right _ (Inside.right _ hlist)

theorem Output.Misaligned.stops {o : Output} (h : o.Misaligned) {d : Dialect} {lock : LockOptions}
    {s : Statement} (hin : o.Inside (Render.statement d lock s)) :
    ∃ (before : Output) (m n : Nat), m ≠ n ∧
      Render.statement d lock s = before ++ .fail (.tupleArity m n) ∧
      translateWithLock d s lock = .error (before.failure.getD (.tupleArity m n)) := by
  obtain ⟨m, n, hne, rfl⟩ := h
  obtain ⟨before, hbefore⟩ := hin.fail
  refine ⟨before, m, n, hne, hbefore, ?_⟩
  rw [translateWithLock, Translation.ofOutput, hbefore, failure_append, failure_fail]
  cases before.failure <;> rfl

/-- In a statement that is translated no two rows of different arities are held against each other,
and each row of an insert has a value for each column that is named. Where that is violated, the
error is that of the two arities, or one of what stands before. -/
theorem arity_checked (d : Dialect) (lock : LockOptions) (s : Statement) :
    (∀ t, translateWithLock d s lock = .ok t →
      (∀ p, s.Renders d lock (.predicate p) → p.Aligned d) ∧ s.RowsAligned) ∧
    ((∃ p, s.Renders d lock (.predicate p) ∧ ¬p.Aligned d) ∨ ¬s.RowsAligned →
      ∃ (before : Output) (m n : Nat), m ≠ n ∧
        Render.statement d lock s = before ++ .fail (.tupleArity m n) ∧
        translateWithLock d s lock = .error (before.failure.getD (.tupleArity m n))) := by
  have hstops : (∃ p, s.Renders d lock (.predicate p) ∧ ¬p.Aligned d) ∨ ¬s.RowsAligned →
      ∃ (before : Output) (m n : Nat), m ≠ n ∧
        Render.statement d lock s = before ++ .fail (.tupleArity m n) ∧
        translateWithLock d s lock = .error (before.failure.getD (.tupleArity m n)) := by
    rintro (⟨p, hp, hmisaligned⟩ | hrows)
    · exact (Predicate.misaligned hmisaligned).stops hp.inside
    · obtain ⟨o, ho, hin⟩ := s.misaligned_row hrows d lock
      exact ho.stops hin
  refine ⟨fun t ht => ?_, hstops⟩
  by_contra hviolated
  obtain ⟨before, m, n, -, -, herror⟩ := hstops (by
    rw [not_and_or, not_forall] at hviolated
    exact hviolated.imp (fun ⟨p, hp⟩ => ⟨p, Classical.not_imp.1 hp⟩) id)
  rw [ht] at herror
  cases herror

theorem arity_checked_list :
    let member (item : List Expr) : Predicate :=
      .inList (.tuple Emulation.pair) [.tuple item] false
    let delete (item : List Expr) : Statement := .delete ⟨⟨none, "t"⟩, some (member item)⟩
    let wide := Emulation.pair ++ Emulation.pair
    (∃ t, translateWithLock .generic (delete Emulation.pair) .unlocked = .ok t) ∧
      (member Emulation.pair).Aligned .generic ∧ ¬(member wide).Aligned .generic ∧
      ∃ (before : Output) (m n : Nat), m ≠ n ∧
        translateWithLock .generic (delete wide) .unlocked =
          .error (before.failure.getD (.tupleArity m n)) := by
  intro member delete wide
  have hrenders (item : List Expr) :
      (delete item).Renders .generic .unlocked (.predicate (member item)) :=
    ⟨_, List.mem_singleton_self _, .here⟩
  have hwide : ¬(member wide).Aligned .generic := fun h =>
    absurd (h (.tuple Emulation.pair, .tuple wide) (List.mem_singleton_self _)) (by decide)
  obtain ⟨t, ht⟩ : ∃ t, translateWithLock .generic (delete Emulation.pair) .unlocked = .ok t :=
    translateWithLock_isOk.2 (by decide)
  have haligned := ((arity_checked .generic .unlocked (delete Emulation.pair)).1 t ht).1 _
    (hrenders Emulation.pair)
  obtain ⟨before, m, n, hne, -, herror⟩ :=
    (arity_checked .generic .unlocked (delete wide)).2 (.inl ⟨_, hrenders wide, hwide⟩)
  exact ⟨⟨t, ht⟩, haligned, hwide, before, m, n, hne, herror⟩

end DialectSql
