import DialectSql.Proofs.Alike.Pairing

namespace DialectSql

open Output

variable {L : Likeness} {d : Dialect} {g : Gates}

variable {P : Pairing L d} {a a' b b' : Output} {os os' : List Output}

structure Limit.Paired (P : Pairing L d) (l l' : Limit) : Prop where
  output : P.whole l.output l'.output
  number : l.number = l'.number
  isParameter : l.isParameter = l'.isParameter

theorem Limit.isNone_eq {l l' : Option Limit} (h : Option.Rel (Limit.Paired P) l l') :
    l.isNone = l'.isNone := by
  cases h <;> rfl

namespace RowLimit

variable {offset offset' fetch fetch' : Option Limit}

theorem integerSum_congr {terms terms' : List Limit} (extra : Int64)
    (h : List.Forall₂ (Limit.Paired P) terms terms') :
    integerSum terms extra = integerSum terms' extra := by
  have hgo (total : Int) (isParameter : Bool) :
      integerSum.go terms total isParameter = integerSum.go terms' total isParameter := by
    induction h generalizing total isParameter with
    | nil => rfl
    | cons ht _ ih =>
        simp only [integerSum.go, ht.number, ht.isParameter, ih]
  exact hgo _ _

theorem paired_integerSum {terms terms' : List Limit} (extra : Int64)
    (h : List.Forall₂ (Limit.Paired P) terms terms') :
    P.led (integerSum terms extra) (integerSum terms' extra) := by
  have hgo (terms : List Limit) (total : Int) (isParameter : Bool) :
      P.led (integerSum.go terms total isParameter) (integerSum.go terms total isParameter) := by
    induction terms generalizing total isParameter with
    | nil =>
        cases isParameter
        · exact P.integer total
        · exact P.unit trivial rfl
    | cons t ts ih =>
        rw [integerSum.go]
        cases t.number with
        | none => exact P.fail _
        | some n =>
            dsimp only
            split
            · exact ih _ _
            · exact P.fail _
  rw [integerSum_congr extra h]
  exact hgo _ _ _

theorem paired_upperBound (rule : UpperBoundRule) {f f' : Limit} (extra : Int64)
    (hf : f.Paired P f') (ho : Option.Rel (Limit.Paired P) offset offset') :
    P.whole (upperBound rule f offset extra) (upperBound rule f' offset' extra) := by
  cases rule with
  | singleParameter =>
      refine P.whole_of_led (paired_integerSum extra (.cons hf ?_))
      cases ho with
      | none => exact .nil
      | some ho => exact .cons ho .nil
  | standard =>
      have hextra := P.when (extra != 0) (P.word_append (w := " + ") (by decide)
        (P.whole_of_led (P.integer extra.toInt)))
      refine P.whole_append (P.whole_append hf.output ?_) hextra
      cases ho with
      | none => exact P.empty
      | some ho => exact P.word_append (by decide) ho.output

/-- The range in front of a select list ends with a blank, so anything may follow it. -/
theorem paired_rowsTo_append (kind : FetchKind) (ho : Option.Rel (Limit.Paired P) offset offset')
    (hf : Option.Rel (Limit.Paired P) fetch fetch') (h : P.whole a a') :
    P.whole (rowsTo d offset fetch kind ++ a) (rowsTo d offset' fetch' kind ++ a') := by
  have hbound {first last first' last' : Output} (hfirst : P.led first first')
      (hlast : P.whole last last') :
      P.whole (.word "rows " ++ first ++ .word " to " ++ last ++ .word " " ++ a)
        (.word "rows " ++ first' ++ .word " to " ++ last' ++ .word " " ++ a') := by
    have hrange := P.led_between (w := " to ") (by decide)
      (P.word_append (w := "rows ") (by decide) (P.whole_of_led hfirst)) hlast
    exact P.whole_of_led (P.led_between (by decide) hrange h)
  have hfail (e : TranslateError) : P.whole (.fail e ++ a) (.fail e ++ a') := by
    rw [append_of_failure rfl, append_of_failure rfl]
    exact P.whole_of_led (P.fail e)
  cases hf with
  | none =>
      cases ho with
      | none =>
          change P.whole (.empty ++ a) (.empty ++ a')
          rwa [empty_append, empty_append]
      | some ho =>
          exact hbound (paired_integerSum 1 (.cons ho .nil)) (P.whole_of_led (P.integer unbounded))
  | some hf =>
      cases kind with
      | withTies =>
          cases ho <;> exact hfail _
      | rowsOnly =>
          cases ho with
          | none => exact hbound (P.word (by decide)) hf.output
          | some ho =>
              exact hbound (paired_integerSum 1 (.cons ho .nil))
                (paired_upperBound d.strategies.upperBound 0 hf (.some ho))

theorem paired_trailing (hg : P.Opens g) (kind : FetchKind)
    (ho : Option.Rel (Limit.Paired P) offset offset')
    (hf : Option.Rel (Limit.Paired P) fetch fetch') :
    P.led (trailing d offset fetch kind) (trailing (d.withGates g) offset' fetch' kind) := by
  have hstyle : (d.withGates g).capabilities.rowLimit = d.capabilities.rowLimit := rfl
  have hsome : fetch.isSome = fetch'.isSome := by cases hf <;> rfl
  rw [trailing.eq_def, trailing.eq_def, hstyle, hsome]
  cases d.capabilities.rowLimit with
  | rowsTo => exact P.empty
  | limitOffset =>
      refine P.led_append (P.led_append (P.require_self _ _) ?_) ?_
      · cases hf with
        | some hf => exact P.word_append (by decide) hf.output
        | none =>
            cases ho with
            | none => exact P.empty
            | some ho => exact P.when _ (P.word (by decide))
      · cases ho with
        | none => exact P.empty
        | some ho => exact P.word_append (by decide) ho.output
  | offsetFetch =>
      refine P.led_append ?_ ?_
      · cases ho with
        | none => exact P.empty
        | some ho => exact P.led_append (P.word_append (by decide) ho.output) (P.word (by decide))
      · cases hf with
        | none => exact P.empty
        | some hf =>
            have hties := P.require_or (!(kind == .withTies)) .fetchWithTies hg.fetchWithTies
            exact P.led_append (P.led_between (by decide) hties hf.output)
              (P.word (.ite (by decide) (by decide)))

theorem paired_clause (hg : P.Opens g) (kind : FetchKind)
    (ho : Option.Rel (Limit.Paired P) offset offset')
    (hf : Option.Rel (Limit.Paired P) fetch fetch') :
    P.led (clause d offset fetch kind) (clause (d.withGates g) offset' fetch' kind) := by
  have hrule : (d.withGates g).strategies = d.strategies := rfl
  rw [clause, clause, hrule]
  cases d.strategies.rowLimit with
  | skip => exact P.empty
  | standard => exact paired_trailing hg kind ho hf

end RowLimit

end DialectSql
