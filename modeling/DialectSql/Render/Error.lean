import DialectSql.Ast.Operator

namespace DialectSql

/-- What a dialect has neither a form nor an emulation for. -/
inductive Unsupported
  | cte
  | recursiveCte
  | lateral
  | summarization (kind : SummarizationKind)
  | summarizedPartition
  | setOperator (operator : SetOperator)
  | fetchWithTies
  | rowLimitTerms
  | tupleAgainstSetOperation
  | tupleAgainstLimitedSubquery
  | intersectWithoutDummyTable
  | insertDefaultValues
deriving DecidableEq, Repr

namespace Unsupported

def message : Unsupported → String
  | cte => "common table expressions are not supported by the dialect"
  | recursiveCte => "recursive common table expressions are not supported by the dialect"
  | lateral => "lateral joins are not supported by the dialect"
  | summarization kind => kind.sql ++ " is not supported by the dialect"
  | summarizedPartition => "summarization is not supported by the dialect"
  | setOperator operator => operator.sql ++ " is not supported by the dialect"
  | fetchWithTies => "fetch with ties is not supported by the dialect"
  | rowLimitTerms => "row limits must be integer literals or integer parameters to be combined"
  | tupleAgainstSetOperation =>
      "row value comparison against a set operation needs row value support"
  | tupleAgainstLimitedSubquery =>
    "row value comparison against an aggregating or limited sub-query needs row value support"
  | intersectWithoutDummyTable => "distinctness emulation through intersect needs a dummy table"
  | insertDefaultValues => "insert with default values is not supported by the dialect"

end Unsupported

/-- A lock that can neither be taken by the query nor left to a following statement. -/
inductive IllegalLock
  | setOperators
  | aggregates
deriving DecidableEq, Repr

namespace IllegalLock

def message : IllegalLock → String
  | setOperators => "Locking with set operators is not supported!"
  | aggregates => "Locking with distinct or grouping is not supported!"

end IllegalLock

/-- A statement that is wrong for every dialect. -/
inductive InvalidStructure
  | emptyCase
  | tooFewMembers (operator : SetOperator) (count : Nat)
  | derivedTableWithoutAlias
  | crossJoinPredicate
  | emptyTuples
  | rowLimitOverflow
  | insertWithoutRows
  | updateWithoutAssignments
deriving DecidableEq, Repr

namespace InvalidStructure

def message : InvalidStructure → String
  | emptyCase => "a case expression needs at least one when clause"
  | tooFewMembers operator count =>
    operator.sql ++ " needs at least two query parts, got " ++ toString count
  | derivedTableWithoutAlias => "a derived table needs an alias"
  | crossJoinPredicate => "a cross join cannot carry a join predicate"
  | emptyTuples => "cannot compare empty tuples"
  | rowLimitOverflow => "row limit overflows a 64-bit integer"
  | insertWithoutRows => "an insert needs at least one values row"
  | updateWithoutAssignments => "an update needs at least one assignment"

end InvalidStructure

inductive TranslateError
  | unsupported (cause : Unsupported)
  | illegalLock (cause : IllegalLock)
  | tupleArity (lhs rhs : Nat)
  | invalid (cause : InvalidStructure)
deriving DecidableEq, Repr

namespace TranslateError

def message : TranslateError → String
  | unsupported cause => "unsupported operation: " ++ cause.message
  | illegalLock cause => "illegal query operation: " ++ cause.message
  | tupleArity lhs rhs =>
    "tuple arity mismatch: " ++ toString lhs ++ " element(s) compared with " ++ toString rhs
  | invalid cause => "invalid statement structure: " ++ cause.message

end TranslateError

end DialectSql
