import DialectSql.Proofs.Rowless.Rows

namespace DialectSql

open Output

/-- The conditions over rows: comparisons, memberships, ranges and null tests, and what negations
and junctions make of them. -/
inductive Predicate.OfRows (d : Dialect) : Predicate → Prop
  | comparison {l r : Expr} (op : ComparisonOperator) (hl : l.OfRows d) (hr : r.OfRows d) :
      OfRows d (.comparison l op r)
  | inList {e : Expr} {list : List Expr} (negated : Bool) (he : e.OfRows d)
      (hlist : ∀ i ∈ list, i.OfRows d) : OfRows d (.inList e list negated)
  | inSubquery {e : Expr} {q : Query} (negated : Bool) (he : e.OfRows d)
      (hq : (Expr.subquery q).OfRows d) : OfRows d (.inSubquery e q negated)
  | between {e low high : Expr} (negated : Bool) (he : e.OfRows d) (hlow : low.OfRows d)
      (hhigh : high.OfRows d) : OfRows d (.between e low high negated)
  | nullCheck {e : Expr} (negated : Bool) (he : e.OfRows d) : OfRows d (.nullCheck e negated)
  | negated {p : Predicate} (h : OfRows d p) : OfRows d (.negated p)
  | junction {ps : List Predicate} (nature : JunctionNature) (h : ∀ p ∈ ps, OfRows d p) :
      OfRows d (.junction nature ps)

mutual
/-- A row is an element of a row that is compared by its elements, or an item of a list behind a
value. Tests of distinctness that are written for each two elements take it apart. -/
def Predicate.nestsRow (d : Dialect) : Predicate → Bool
  | .comparison l op r =>
    !Comparison.comparesPairs d op && (l.elements ++ r.elements).any Expr.holdsRow
  | .inList e list _ =>
    !list.isEmpty &&
      (e.elements ++ list.flatMap fun i => if e.isTuple then i.elements else [i]).any Expr.holdsRow
  | .inSubquery e _ _ => e.elements.any Expr.holdsRow
  | .between e low high _ => (e.elements ++ low.elements ++ high.elements).any Expr.holdsRow
  | .nullCheck e _ => e.elements.any Expr.holdsRow
  | .negated p => p.nestsRow d
  | .junction _ ps => anyNestsRow d ps
  | _ => false
def anyNestsRow (d : Dialect) : List Predicate → Bool
  | [] => false
  | p :: ps => p.nestsRow d || anyNestsRow d ps
end

theorem anyNestsRow_eq (d : Dialect) (ps : List Predicate) :
    anyNestsRow d ps = ps.any (Predicate.nestsRow d) := by
  induction ps with
  | nil => rfl
  | cons p ps ih => rw [anyNestsRow, ih, List.any_cons]

namespace Output.Keeps

variable {d : Dialect}

theorem nullCheck {e : Expr} (he : e.OfRows d) (negated : Bool)
    (hflat : e.elements.any Expr.holdsRow = false) :
    (Render.nullCheck (Render.operand d e) negated).Rowless := by
  rw [Render.nullCheck_eq, RowValue.isTuple_operand, Render.elements_operand,
    Render.length_operands]
  split
  · exact parenthesized (joined rfl (List.forall_mem_map.2 fun o ho =>
      nullTest negated (he.rowless_elements hflat o ho)))
  · rename_i hshort
    refine nullTest negated (he.rowless ?_)
    rw [Expr.holdsRow_eq, hflat, Bool.or_false]
    exact Bool.not_eq_true _ ▸ hshort

theorem checkArities (n : Nat) (items : List Operand) : (Render.checkArities n items).Rowless :=
  concat (List.forall_mem_map.2 fun _ _ => checkArity _ _)

theorem opens_membership (negated : Bool) : Opens true (Render.membership negated) := by
  cases negated <;> exact fun _ => ⟨_, _, rfl, fun _ => rfl⟩

theorem inList (hd : d.LacksRows) {e : Expr} {items : List Expr} (he : e.OfRows d)
    (hitems : ∀ i ∈ items, i.OfRows d) (negated : Bool)
    (hflat : (Predicate.inList e items negated).nestsRow d = false) :
    (Render.inList d (Render.operand d e) (Render.operands d items) negated).Rowless := by
  have hempty : (Render.operands d items).isEmpty = items.isEmpty := by cases items <;> rfl
  rw [Render.inList_eq, hempty, RowValue.isTuple_operand, Render.elements_operand]
  cases hitem : items.isEmpty with
  | true => cases negated <;> exact word rfl
  | false =>
      simp only [Predicate.nestsRow, hitem, Bool.not_false, Bool.true_and, List.any_append,
        Bool.or_eq_false_iff, List.any_flatMap, List.any_eq_false, Bool.not_eq_true] at hflat
      cases htuple : e.isTuple with
      | true =>
          simp only [htuple, if_true] at hflat
          have hrows : ∀ o ∈ (Render.operands d items).map fun i => Comparison.tuples d
              (Render.operands d e.elements) i.elements .equal false, o.Rowless := by
            refine List.forall_mem_map.2 fun o ho => ?_
            obtain ⟨i, hi, rfl⟩ := Render.mem_operands.1 ho
            rw [Render.elements_operand]
            refine tuples_flat rfl (he.rowless_elements (by simpa using hflat.1))
              ((hitems i hi).rowless_elements ?_) false
            simpa using hflat.2 i hi
          have hnot : (Output.when negated (.word "not ")).Rowless := when negated (word rfl)
          rw [hd.lists]
          exact (checkArities _ _).append (hnot.append (parenthesized (joined rfl hrows)))
      | false =>
          simp only [htuple, Bool.false_eq_true, if_false] at hflat
          have hlist : Keeps true (.list (operandOutputs (Render.operands d items))) := by
            rw [Render.operandOutputs_operands]
            refine list (List.forall_mem_map.2 fun i hi => (hitems i hi).rowless ?_)
            simpa using hflat.2 i hi
          exact append_enclosed (he.rowless_of_value htuple) (opens_membership negated) hlist

/-- A query behind a membership stands in its brackets as a list does. -/
theorem membership {o : Output} (h : o.parenthesized.Rowless) (negated : Bool) :
    (.word (Render.membership negated) ++ o ++ .word ")" : Output).Rowless := by
  intro hok s _
  have hinner : o.failure = none := by simpa using hok
  obtain ⟨before, hbefore, hword⟩ : ∃ before, before.all (RowScan.passes false) = true ∧
      Lexeme.ofWord (Render.membership negated) = before ++ Lexeme.ofWord "(" := by
    cases negated
    · exact ⟨[.word "in"], rfl, rfl⟩
    · exact ⟨[.word "not", .word "in"], rfl, rfl⟩
  obtain ⟨last, hscan⟩ := scan_passes hbefore (s := s) nofun
  obtain ⟨last', hscan'⟩ := h (by simpa using hinner) ⟨last, s.brackets⟩ nofun
  refine ⟨last', ?_⟩
  rw [Output.parenthesized, lexemes_between hinner] at hscan'
  rw [lexemes_between hinner, hword, List.append_assoc, List.append_assoc, RowScan.scan_append,
    hscan, Option.bind_some, ← List.append_assoc, hscan']

theorem inSubquery (hd : d.LacksRows) {e : Expr} {q : Query} (he : e.OfRows d)
    (hq : (Expr.subquery q).OfRows d) (negated : Bool)
    (hflat : e.elements.any Expr.holdsRow = false) :
    (Render.inSubquery d (Render.operand d e) (Render.query d none q) negated).Rowless := by
  rw [Render.inSubquery_eq, RowValue.isTuple_operand, Render.elements_operand, hd.quantified]
  cases htuple : e.isTuple with
  | true =>
      cases hq with
      | value hscalar => cases hscalar
      | query hquery h hmoved hcolumns hcolumnsFlat =>
          cases hquery
          refine moved hd hmoved (fun s hs bounded => ?_) .any negated
          have hequal : ComparisonOperator.equal.invert.isDistinctness = false := rfl
          refine tuples_flat hequal ?_ (he.rowless_elements hflat) bounded
          exact Expr.OfRows.rowless_columns
            (.query rfl h hmoved hcolumns hcolumnsFlat : (Expr.subquery q).OfRows d) (congrArg some hs)
  | false =>
      have hall := (he.rowless_of_value htuple).append
        (membership (hq.rowless_of_value rfl) negated)
      rw [← Output.append_assoc, ← Output.append_assoc] at hall
      exact hall

theorem between (hd : d.LacksRows) {e low high : Expr} (he : e.OfRows d) (hlow : low.OfRows d)
    (hhigh : high.OfRows d) (negated : Bool)
    (hflat : (Predicate.between e low high negated).nestsRow d = false) :
    (Render.between d (Render.operand d e) (Render.operand d low) (Render.operand d high)
      negated).Rowless := by
  simp only [Predicate.nestsRow, List.any_append, Bool.or_eq_false_iff] at hflat
  obtain ⟨⟨heflat, hlowflat⟩, hhighflat⟩ := hflat
  rw [Render.between, RowValue.isTuple_operand, RowValue.isTuple_operand, RowValue.isTuple_operand,
    hd.constructor, Render.elements_operand, Render.elements_operand, Render.elements_operand]
  cases hrows : e.isTuple || low.isTuple || high.isTuple with
  | true =>
      have helements := he.rowless_elements heflat
      have hbelow : (Comparison.tuples d (Render.operands d e.elements)
          (Render.operands d low.elements) .greaterThanOrEqual true).Rowless :=
        tuples_flat rfl helements (hlow.rowless_elements hlowflat) true
      have habove : (Comparison.tuples d (Render.operands d e.elements)
          (Render.operands d high.elements) .lessThanOrEqual true).Rowless :=
        tuples_flat rfl helements (hhigh.rowless_elements hhighflat) true
      have hboth := (hbelow.append (word (w := " and ") rfl)).append habove
      have hnot : (Output.when negated (.word "not ")).Rowless := when negated (word rfl)
      exact (((checkArity _ _).append (checkArity _ _)).append hnot).append (parenthesized hboth)
  | false =>
      simp only [Bool.or_eq_false_iff] at hrows
      have hword : (Output.word (if negated then " not between " else " between ")).Rowless := by
        cases negated <;> exact word rfl
      exact ((((he.rowless_of_value hrows.1.1).append hword).append
        (hlow.rowless_of_value hrows.1.2)).append (word rfl)).append
        (hhigh.rowless_of_value hrows.2)

theorem junction (nature : JunctionNature) {members : List (Bool × Output)}
    (h : ∀ m ∈ members, m.2.Rowless) : (Render.junction nature members).Rowless := by
  have hwrap (m : Bool × Output) (hm : m.2.Rowless) : (Render.wrap m.1 m.2).Rowless := by
    rw [Render.wrap]
    split
    · exact parenthesized hm
    · exact hm
  match members, h with
  | [], _ => cases nature <;> exact word rfl
  | [m], h => exact h m (by simp)
  | m :: n :: ms, h =>
      have hseparator : (Lexeme.ofWord nature.separator).all (RowScan.passes false) = true := by
        cases nature <;> rfl
      exact joined hseparator (List.forall_mem_map.2 fun m hm => hwrap m (h m hm))

end Output.Keeps

/-- A condition over rows in which no row is nested has no row. -/
theorem Predicate.OfRows.rowless {d : Dialect} (hd : d.LacksRows) {p : Predicate} (h : p.OfRows d)
    (hflat : p.nestsRow d = false) : (Render.predicate d p).Rowless := by
  induction h with
  | comparison op hl hr =>
      refine .compared hd hl hr fun hpairs => ?_
      simpa only [nestsRow, hpairs, Bool.not_false, Bool.true_and, List.any_append,
        Bool.or_eq_false_iff] using hflat
  | inList negated he hlist => exact .inList hd he hlist negated hflat
  | inSubquery negated he hq => exact .inSubquery hd he hq negated hflat
  | between negated he hlow hhigh => exact .between hd he hlow hhigh negated hflat
  | nullCheck negated he => exact .nullCheck he negated hflat
  | negated _ ih => exact (Keeps.word rfl).append (Keeps.parenthesized (ih hflat))
  | @junction ps nature _ ih =>
      rw [nestsRow, anyNestsRow_eq, List.any_eq_false] at hflat
      rw [Render.predicate, Render.predicates_eq_map]
      exact Keeps.junction nature
        (List.forall_mem_map.2 fun p hp => ih p hp (by simpa using hflat p hp))

end DialectSql
