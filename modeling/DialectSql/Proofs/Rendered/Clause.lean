import DialectSql.Proofs.Rendered.Expression
import DialectSql.Proofs.Rendered.Node

namespace DialectSql

theorem Limit.output_ofExpr (e : Expr) (o : Output) : (Limit.ofExpr e o).output = o := by
  rw [Limit.ofExpr.eq_def]
  split <;> rfl

namespace Output.Composed

variable {ms ns : List Output} {o : Output}

theorem integerSum (terms : List Limit) (extra : Int64) :
    Composed [] (RowLimit.integerSum terms extra) := by
  have hgo (total : Int) (isParameter : Bool) :
      Composed [] (RowLimit.integerSum.go terms total isParameter) := by
    induction terms generalizing total isParameter with
    | nil =>
        rw [RowLimit.integerSum.go]
        split
        · exact unit rfl
        · exact unit (isTidy_int total)
    | cons t ts ih =>
        rw [RowLimit.integerSum.go]
        split
        · exact fail _ _
        · dsimp only
          split
          · exact ih _ _
          · exact fail _ _
  exact hgo _ _

theorem upperBound (rule : UpperBoundRule) (f o : Limit) :
    Composed (if rule = .standard then [f.output, o.output] else [])
      (RowLimit.upperBound rule f (some o) 0) := by
  cases rule with
  | standard =>
      exact (((part f.output).append ((word rfl).behind (part o.output))).before empty).congr
        (by simp)
  | singleParameter => exact integerSum _ _

/-- The outputs of the limits in a row range. -/
def rangeOutputs (rule : UpperBoundRule) (offset fetch : Option Limit) : List Output :=
  match fetch, offset with
  | some f, some o => if rule = .standard then [f.output, o.output] else []
  | some f, none => [f.output]
  | none, _ => []

theorem rowsTo (d : Dialect) (offset fetch : Option Limit) (kind : FetchKind) :
    Composed (rangeOutputs d.strategies.upperBound offset fetch)
      (RowLimit.rowsTo d offset fetch kind) := by
  have hrange {ms : List Output} {start stop : Output} (hstart : Composed [] start)
      (hstop : Composed ms stop) :
      Composed ms (.word "rows " ++ start ++ .word " to " ++ stop ++ .word " ") :=
    ((((word rfl).append hstart).append (word rfl)).behind hstop).before (word rfl)
  rw [RowLimit.rowsTo.eq_def]
  cases offset with
  | none =>
      cases fetch with
      | none => exact empty
      | some f =>
          split
          · contradiction
          · split
            · exact fail _ _
            · exact hrange (word rfl) (part f.output)
  | some o =>
      have hstart := integerSum [o] 1
      cases fetch with
      | none => exact hrange hstart (unit (isTidy_int _))
      | some f =>
          split
          · contradiction
          · split
            · exact fail _ _
            · exact hrange hstart (upperBound _ f o)

theorem trailing (d : Dialect) (offset fetch : Option Limit) (kind : FetchKind) :
    Composed (if d.capabilities.rowLimit = .rowsTo then []
        else offset.toList.map (·.output) ++ fetch.toList.map (·.output))
      (RowLimit.trailing d offset fetch kind) := by
  have hlimit {w : String} (hw : Lexeme.isFixed w = true) (l : Limit) :
      Composed [l.output] (.word w ++ l.output) := (word hw).behind (part _)
  rw [RowLimit.trailing.eq_def]
  dsimp only
  cases d.capabilities.rowLimit with
  | rowsTo => exact empty
  | offsetFetch =>
      refine append ?_ ?_
      · cases offset with
        | none => exact empty
        | some o => exact (hlimit rfl o).before (word rfl)
      · cases fetch with
        | none => exact empty
        | some f =>
            refine before (behind (append (require _ _) (word rfl)) (part f.output)) ?_
            split <;> exact word rfl
  | limitOffset =>
      have hties (fetch : Option Limit) :=
        require (!(fetch.isSome && kind == .withTies)) (.unsupported .fetchWithTies)
      cases offset with
      | none =>
          cases fetch with
          | none => exact (hties none).append (empty.append empty)
          | some f => exact ((hties (some f)).behind (hlimit rfl f)).before empty
      | some o =>
          cases fetch with
          | none => exact ((hties none).append (when _ (word rfl))).behind (hlimit rfl o)
          | some f =>
              exact (((hties (some f)).behind (hlimit rfl f)).append (hlimit rfl o)).congr
                fun m => List.perm_append_comm.mem_iff

theorem rowLimit (d : Dialect) (offset fetch : Option Limit) (kind : FetchKind) :
    Composed (if d.strategies.rowLimit = .standard ∧ d.capabilities.rowLimit ≠ .rowsTo then
        offset.toList.map (·.output) ++ fetch.toList.map (·.output) else [])
      (RowLimit.clause d offset fetch kind) := by
  rw [RowLimit.clause]
  cases d.strategies.rowLimit with
  | skip => exact empty
  | standard => simpa [ite_not] using trailing d offset fetch kind

theorem selectList (distinct : Bool) (items : List Output) :
    Composed items (Render.selectList distinct items) := by
  refine (when distinct (word rfl)).behind ?_
  cases items with
  | nil => exact word rfl
  | cons o os => exact list (o :: os)

theorem selectListOf (d : Dialect) (offset fetch : Option Limit) (kind : FetchKind)
    (h : Composed ms o) :
    Composed (ms ++ if d.strategies.selectList = .rowsTo then
        rangeOutputs d.strategies.upperBound offset fetch else [])
      (Render.selectListOf d offset fetch kind o) := by
  rw [Render.selectListOf.eq_def]
  cases d.strategies.selectList with
  | standard => simpa using h
  | rowsTo =>
      refine ((rowsTo d offset fetch kind).append h).congr fun m => ?_
      rw [if_pos rfl, List.mem_append, List.mem_append, or_comm]

theorem namedTable (t : NamedTable) : Composed [] (Render.namedTable t) :=
  qualified t.schema (unit rfl)

theorem fromClause (d : Dialect) (roots : List Output) :
    Composed roots (Render.fromClause d roots) := by
  cases roots with
  | nil =>
      rw [Render.fromClause, if_pos List.isEmpty_nil, Render.missingFrom]
      split
      · split
        · exact (word rfl).append (name _)
        · exact empty
      · exact empty
  | cons o os => exact (word rfl).behind (list (o :: os))

theorem checkCrossJoin (p : Option Predicate) : Composed [] (Render.checkCrossJoin p) :=
  require _ _

theorem joinHead (d : Dialect) (type : JoinType) (p : Option Predicate) (lateral : Bool) :
    Composed [] (Render.joinHead d type p lateral) := by
  have htype : Composed [] (.word type.sql) := by cases type <;> exact word rfl
  have hjoin := ((word (w := " ") rfl).append htype).append (word (w := " join ") rfl)
  have hlateral := word (w := "lateral ") rfl
  rw [Render.joinHead.eq_def]
  split
  · exact (hjoin.append (when _ ((require _ _).append hlateral))).append
      (when _ (checkCrossJoin p))
  · refine behind ?_ (when _ hlateral)
    split
    · exact (checkCrossJoin p).append (word rfl)
    · exact hjoin

theorem membersJoined {operator : Output} (hop : Composed [] operator) (members : List Output) :
    Composed members (Render.membersJoined operator members) := by
  induction members with
  | nil => exact empty
  | cons o os ih =>
      cases os with
      | nil => exact part o
      | cons p os => exact ((((part o).before (word rfl)).before hop).before (word rfl)).append ih

theorem setOperatorText (d : Dialect) (op : SetOperator) :
    Composed [] (Render.setOperatorText d op) := by
  cases op <;> rw [Render.setOperatorText.eq_def] <;> dsimp only <;>
    first
    | exact word rfl
    | split <;> exact word rfl

theorem member (d : Dialect) (q : Query) (h : Composed ms o) :
    Composed ms (Render.member d q o) := by
  rw [Render.member.eq_def]
  dsimp only
  split_ifs
  · exact h.parenthesized
  · exact (((word rfl).behind h.parenthesized).before (word rfl)).before (unit rfl)
  · exact h

theorem setOperation (d : Dialect) (op : SetOperator) (members sorts : List Output)
    (offset fetch : Option Limit) (kind : FetchKind) :
    Composed (members ++ sorts ++
        if d.capabilities.rowLimit == .rowsTo && (offset.isSome || fetch.isSome) then
          rangeOutputs d.strategies.upperBound offset fetch
        else if d.strategies.rowLimit = .standard ∧ d.capabilities.rowLimit ≠ .rowsTo then
          offset.toList.map (·.output) ++ fetch.toList.map (·.output)
        else [])
      (Render.setOperation d op members sorts offset fetch kind) := by
  have hbody := membersJoined (setOperatorText d op) members
  have hhead := (require (2 ≤ members.length) (.invalid (.tooFewMembers op members.length))).append
    (require (d.capabilities.intersectExceptAll || !(op == .intersectAll || op == .exceptAll))
      (.unsupported (.setOperator op)))
  rw [Render.setOperation]
  refine Composed.behind hhead ?_
  by_cases hderived : (d.capabilities.rowLimit == .rowsTo &&
      (offset.isSome || fetch.isSome)) = true
  · simp only [if_pos hderived]
    have hselect := ((word (w := "select ") rfl).behind (rowsTo d offset fetch kind)).before
      (word (w := "* from ") rfl)
    have hall := (((hselect.append hbody.parenthesized).before (word (w := " ") rfl)).before
      (unit (p := .derivedAlias) rfl)).append (orderBy sorts)
    refine hall.congr fun m => ?_
    simp only [List.mem_append]
    tauto
  · simp only [if_neg hderived]
    exact (hbody.append (orderBy sorts)).append (rowLimit d offset fetch kind)

end Output.Composed

end DialectSql
