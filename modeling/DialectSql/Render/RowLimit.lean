import DialectSql.Dialect.Basic
import DialectSql.Render.Output

namespace DialectSql

/-- A rendered offset or fetch, with its number when it is an integer literal or an integer
parameter. -/
structure Limit where
  output : Output
  number : Option Int64
  isParameter : Bool

namespace Limit

def ofExpr (e : Expr) (output : Output) : Limit :=
  match e with
  | .literal (.int n) => ⟨output, some n, false⟩
  | .parameter (.value (.int n)) => ⟨output, some n, true⟩
  | _ => ⟨output, none, false⟩

end Limit

namespace RowLimit

def unbounded : Int := Int64.maxValue.toInt

/-- A sum of limits as one number: a placeholder if one of the terms is a parameter. -/
def integerSum (terms : List Limit) (extra : Int64) : Output :=
  go terms extra.toInt false
where
  go : List Limit → Int → Bool → Output
  | [], total, isParameter =>
    if isParameter then .ofPieces [.slot (.value (.int (Int64.ofInt total)))]
    else .ofPieces [.plain (toString total)]
  | t :: ts, total, isParameter =>
    match t.number with
    | none => .fail (.unsupported .rowLimitTerms)
    | some n =>
      let sum := total + n.toInt
      if Int64.minValue.toInt ≤ sum ∧ sum ≤ Int64.maxValue.toInt then
        go ts sum (isParameter || t.isParameter)
      else .fail (.invalid .rowLimitOverflow)

def upperBoundStandard (fetch : Limit) (offset : Option Limit) (extra : Int64) : Output :=
  fetch.output ++
    (match offset with
      | some o => .word " + " ++ o.output
      | none => .empty) ++
    .when (extra != 0) (.word " + " ++ .ofPieces [.plain (toString extra.toInt)])

/-- The last row of a range: fetch plus offset plus a constant. -/
def upperBound (rule : UpperBoundRule) (fetch : Limit) (offset : Option Limit) (extra : Int64) :
    Output :=
  match rule with
  | .standard => upperBoundStandard fetch offset extra
  | .singleParameter => integerSum (fetch :: offset.toList) extra

/-- The range `rows m to n ` in front of a select list, counted from one. -/
def rowsTo (d : Dialect) (offset fetch : Option Limit) (kind : FetchKind) : Output :=
  if offset.isNone && fetch.isNone then .empty
  else if fetch.isSome && kind == .withTies then .fail (.unsupported .fetchWithTies)
  else
    .word "rows " ++
      (match offset with
        | some o => integerSum [o] 1
        | none => .word "1") ++
      .word " to " ++
      (match fetch, offset with
        | some f, some o => upperBound d.strategies.upperBound f (some o) 0
        | some f, none => f.output
        | none, _ => .ofPieces [.plain (toString unbounded)]) ++
      .word " "

/-- The clause at the end of a query; a range in front of the select list leaves nothing for it. -/
def trailing (d : Dialect) (offset fetch : Option Limit) (kind : FetchKind) : Output :=
  let withTies := fetch.isSome && kind == .withTies
  match d.capabilities.rowLimit with
  | .offsetFetch =>
    (match offset with
      | some o => .word " offset " ++ o.output ++ .word " rows"
      | none => .empty) ++
    (match fetch with
      | some f =>
        .require (!withTies || d.capabilities.fetchWithTies) (.unsupported .fetchWithTies) ++
          .word " fetch first " ++ f.output ++
            .word (if withTies then " rows with ties" else " rows only")
      | none => .empty)
  | .limitOffset =>
    .require (!withTies) (.unsupported .fetchWithTies) ++
      (match fetch, offset with
        | some f, _ => .word " limit " ++ f.output
        | none, some _ => .when d.capabilities.offsetRequiresLimit (.word " limit -1")
        | none, none => .empty) ++
      (match offset with
        | some o => .word " offset " ++ o.output
        | none => .empty)
  | .rowsTo => .empty

/-- The clause at the end of a query, unless the dialect skips it. -/
def clause (d : Dialect) (offset fetch : Option Limit) (kind : FetchKind) : Output :=
  match d.strategies.rowLimit with
  | .standard => trailing d offset fetch kind
  | .skip => .empty

end RowLimit

end DialectSql
