import DialectSql.Dialect.Basic
import DialectSql.Render.Output

namespace DialectSql

mutual

/-- A rendered expression, with as much of its structure as comparisons ask for. -/
inductive Operand
  | scalar (output : Output)
  | tuple (elements : List Operand)
  | subquery (query : Subquery)
  | quantified (quantifier : Quantifier) (query : Subquery)

/-- A rendered query. Of a query specification its parts are kept, so that the condition of a
comparison can be moved into it; `movable` says that it neither merges nor limits rows. -/
inductive Subquery
  | setOperation (output : Output)
  | spec (output : Output) (movable : Bool) (source : Output) (restriction : Option Output)
      (selections : List Operand)

end

def Subquery.output : Subquery → Output
  | .setOperation o => o
  | .spec o _ _ _ _ => o

mutual
def Operand.output : Operand → Output
  | .scalar o => o
  | .tuple es => (Output.list (operandOutputs es)).parenthesized
  | .subquery q => q.output.parenthesized
  | .quantified quantifier q => .word quantifier.sql ++ .word " " ++ q.output.parenthesized
def operandOutputs : List Operand → List Output
  | [] => []
  | e :: es => e.output :: operandOutputs es
end

namespace Operand

def elements : Operand → List Operand
  | .tuple es => es
  | e => [e]

def isTuple : Operand → Bool
  | .tuple _ => true
  | _ => false

end Operand

namespace Comparison

def plain (lhs : Operand) (op : ComparisonOperator) (rhs : Operand) : Output :=
  lhs.output ++ .word op.sql ++ rhs.output

def nullTest (e : Operand) (negated : Bool) : Output :=
  e.output ++ .word (if negated then " is not null" else " is null")

/-- Distinctness of two scalars by equality and null tests. -/
def distinctByNullTests (lhs : Operand) (op : ComparisonOperator) (rhs : Operand) : Output :=
  Output.parenthesized <|
    if op = .distinct then
      plain lhs .notEqual rhs ++ .word " or " ++
        nullTest lhs false ++ .word " and " ++ nullTest rhs true ++ .word " or " ++
        nullTest lhs true ++ .word " and " ++ nullTest rhs false
    else
      plain lhs .equal rhs ++ .word " or " ++
        nullTest lhs false ++ .word " and " ++ nullTest rhs false

def plainEach (op : ComparisonOperator) : List Operand → List Operand → List Output
  | l :: ls, r :: rs => plain l op r :: plainEach op ls rs
  | _, _ => []

/-- `a < x or a = x and (...)` for each element but the last. -/
def lexicographic (op : ComparisonOperator) : List Operand → List Operand → Output
  | [l], r :: _ => plain l op r
  | l :: ls, r :: rs =>
    plain l op.sharper r ++ .word " or " ++ plain l .equal r ++ .word " and (" ++
      lexicographic op ls rs ++ .word ")"
  | _, _ => .empty

/-- `a <= x and (a < x or ...)` for each element but the last, so that an index on the first column
bounds the scan. -/
def leadingBound (op : ComparisonOperator) : List Operand → List Operand → Output
  | [l], r :: _ => plain l op r
  | l :: ls, r :: rs =>
    plain l op.broader r ++ .word " and (" ++ plain l op.sharper r ++ .word " or " ++
      leadingBound op ls rs ++ .word ")"
  | _, _ => .empty

/-- Two one-row selects have a common row exactly when the tuples are not distinct. -/
def distinctByIntersect (d : Dialect) (ls : List Operand) (op : ComparisonOperator)
    (rs : List Operand) : Output :=
  checkArity ls.length rs.length ++
    match d.capabilities.dualTable with
    | none => .fail (.unsupported .intersectWithoutDummyTable)
    | some dual =>
      .when (op == .distinct) (.word "not ") ++ .word "exists (select " ++
        .list (operandOutputs ls) ++ .word " from " ++ .name dual ++ .word " intersect select " ++
        .list (operandOutputs rs) ++ .word " from " ++ .name dual ++ .word ")"

mutual

def render (d : Dialect) (lhs : Operand) (op : ComparisonOperator) (rhs : Operand) : Output :=
  match d.strategies.comparison with
  | .standard => standard d lhs op rhs
  | .intersect => intersect d lhs op rhs
  | .lexicographic =>
    match lhs, rhs with
    | .tuple ls, .tuple rs => tuples d ls rs op false
    | lhs, rhs => standard d lhs op rhs
termination_by (sizeOf lhs + sizeOf rhs, 4)

/-- Distinctness through an intersection, all else in the standard way. -/
def intersect (d : Dialect) (lhs : Operand) (op : ComparisonOperator) (rhs : Operand) : Output :=
  if op.isDistinctness then distinctByIntersect d lhs.elements op rhs.elements
  else standard d lhs op rhs
termination_by (sizeOf lhs + sizeOf rhs, 3)

def standard (d : Dialect) (lhs : Operand) (op : ComparisonOperator) (rhs : Operand) : Output :=
  match lhs, rhs with
  | .tuple ls, .quantified quantifier q =>
    if d.capabilities.rowValueInQuantified then plain lhs op rhs
    else subquery d ls q op quantifier false
  | .tuple ls, .subquery q =>
    if d.capabilities.rowValueConstructor then plain lhs op rhs
    else subquery d ls q op .any false
  | _, .quantified _ _ => plain lhs op rhs
  | _, .subquery _ => plain lhs op rhs
  | .tuple ls, .tuple rs =>
    checkArity ls.length rs.length ++
      if d.capabilities.rowValueConstructor &&
          (!op.isDistinctness || d.capabilities.distinctFrom == .native) then
        plain lhs op rhs
      else tuples d ls rs op true
  | .tuple ls, _ => .fail (.tupleArity ls.length 1)
  | _, .tuple rs => .fail (.tupleArity 1 rs.length)
  | _, _ =>
    if op.isDistinctness && d.capabilities.distinctFrom == .emulated then
      distinctByNullTests lhs op rhs
    else plain lhs op rhs
termination_by (sizeOf lhs + sizeOf rhs, 2)

/-- Two tuples by their elements. Orderings have two forms, the one that leads with an inclusive
bound when `bounded`. -/
def tuples (d : Dialect) (ls rs : List Operand) (op : ComparisonOperator) (bounded : Bool) :
    Output :=
  checkArity ls.length rs.length ++
    if ls.isEmpty then .fail (.invalid .emptyTuples)
    else Output.parenthesized <|
      match op with
      | .equal => .joined " and " (plainEach op ls rs)
      | .notEqual => .joined " or " (plainEach op ls rs)
      | .distinct => .joined " or " (renderEach d op ls rs)
      | .notDistinct => .joined " and " (renderEach d op ls rs)
      | op => if bounded then leadingBound op ls rs else lexicographic op ls rs
termination_by (sizeOf ls + sizeOf rs, 1)

def renderEach (d : Dialect) (op : ComparisonOperator) : List Operand → List Operand → List Output
  | l :: ls, r :: rs => render d l op r :: renderEach d op ls rs
  | _, _ => []
termination_by ls rs => (sizeOf ls + sizeOf rs, 0)

/-- The select list of a query against a tuple, inside the query. -/
def selectTuple (d : Dialect) (selections tuple : List Operand) (op : ComparisonOperator) :
    Output :=
  match d.strategies.selectTuple with
  | .standard => selectTupleStandard d selections tuple op
  | .emulate => tuples d selections tuple op true
  | .lexicographic => tuples d selections tuple op false
termination_by (sizeOf selections + sizeOf tuple, 3)

def selectTupleStandard (d : Dialect) (selections tuple : List Operand) (op : ComparisonOperator) :
    Output :=
  if d.capabilities.rowValueConstructor then
    checkArity selections.length tuple.length ++
      (Output.list (operandOutputs selections)).parenthesized ++ .word op.sql ++
      (Output.list (operandOutputs tuple)).parenthesized
  else tuples d selections tuple op true
termination_by (sizeOf selections + sizeOf tuple, 2)

/-- A tuple against a query, as the existence of a row that matches. For `all` no row may fail to
match. The sides are swapped, so the operator is inverted. -/
def subquery (d : Dialect) (ls : List Operand) (query : Subquery) (op : ComparisonOperator)
    (quantifier : Quantifier) (negated : Bool) : Output :=
  match query with
  | .setOperation _ => .fail (.unsupported .tupleAgainstSetOperation)
  | .spec _ movable source restriction selections =>
    if !movable then .fail (.unsupported .tupleAgainstLimitedSubquery)
    else
      checkArity ls.length selections.length ++
        .when negated (.word "not ") ++ .when (quantifier == .all) (.word "not ") ++
        .word "exists (select 1" ++ source ++ .word " where " ++
        (match restriction with
          | some r => r.parenthesized ++ .word " and "
          | none => .empty) ++
        .when (quantifier == .all) (.word "not ") ++
        selectTuple d selections ls op.invert ++ .word ")"
termination_by (sizeOf ls + sizeOf query, 0)

end

end Comparison

end DialectSql
