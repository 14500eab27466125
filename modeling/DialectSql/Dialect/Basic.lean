import DialectSql.Dialect.Capabilities

namespace DialectSql

/-- The choice at each point where dialects differ in more than a capability. -/
inductive LockingRule
  | standard
  /-- A set operation leaves the lock to a following statement; all else takes the clause. -/
  | unlessSetOperation
deriving DecidableEq, Repr

inductive JoinRule
  | standard
  /-- A cross join is a comma, and a condition is written only where there is one. -/
  | commaForCross
deriving DecidableEq, Repr

inductive SearchRule
  | standard
  | skip
deriving DecidableEq, Repr

inductive CycleRule
  | standard
  | gap
deriving DecidableEq, Repr

inductive SelectListRule
  | standard
  /-- The row range stands in front of the select list. -/
  | rowsTo
deriving DecidableEq, Repr

inductive UpperBoundRule
  | standard
  /-- Fetch and offset are added up before they are written. -/
  | singleParameter
deriving DecidableEq, Repr

inductive RowLimitRule
  | standard
  | skip
deriving DecidableEq, Repr

inductive ComparisonRule
  | standard
  /-- Distinctness becomes an intersection of two one-row selects. -/
  | intersect
  /-- Two tuples are compared element by element. -/
  | lexicographic
deriving DecidableEq, Repr

inductive SelectTupleRule
  | standard
  | emulate
  | lexicographic
deriving DecidableEq, Repr

inductive PartitionRule
  | standard
  | expression
deriving DecidableEq, Repr

structure Strategies where
  locking : LockingRule := .standard
  join : JoinRule := .standard
  search : SearchRule := .standard
  cycle : CycleRule := .standard
  selectList : SelectListRule := .standard
  upperBound : UpperBoundRule := .standard
  rowLimit : RowLimitRule := .standard
  comparison : ComparisonRule := .standard
  selectTuple : SelectTupleRule := .standard
  partition : PartitionRule := .standard
deriving DecidableEq, Repr

structure Dialect where
  name : String
  capabilities : Capabilities
  strategies : Strategies
deriving DecidableEq, Repr

namespace Dialect

def generic : Dialect := ⟨"generic", .standard, {}⟩

def sqlite : Dialect where
  name := "sqlite"
  capabilities :=
    { Capabilities.standard with
      rowValueInList := false
      rowLimit := .limitOffset
      offsetRequiresLimit := true
      fetchWithTies := false
      summarization := .unsupported
      lateral := false
      cteMaterialization := true
      searchClause := .unsupported
      cycleClause := .unsupported
      intersectExceptAll := false
      simpleQueryGrouping := false
      locking := .unsupported }
  strategies := { partition := .expression }

def timesten : Dialect where
  name := "timesten"
  capabilities :=
    { Capabilities.standard with
      rowValueConstructor := false
      rowValueInList := false
      rowValueInQuantified := false
      rowLimit := .rowsTo
      fetchWithTies := false
      booleanLiterals := .integer
      distinctFrom := .emulated
      summarization := .unsupported
      nullPrecedence := false
      recursiveKeyword := false
      searchClause := .unsupported
      cycleClause := .unsupported
      dualTable := some "dual"
      selectRequiresFrom := true
      minusForExcept := true
      intersectExceptAll := false
      insertDefaultValues := false
      locking :=
        { forUpdate := true
          forShare := false
          ofAliases := false
          noWait := true
          skipLocked := false
          waitSeconds := true
          withSetOperators := false
          withAggregates := true } }
  strategies :=
    { locking := .unlessSetOperation
      join := .commaForCross
      search := .skip
      cycle := .gap
      selectList := .rowsTo
      upperBound := .singleParameter
      rowLimit := .skip
      comparison := .intersect
      selectTuple := .emulate
      partition := .expression }

def known : List Dialect := [generic, sqlite, timesten]

def ofName? (name : String) : Option Dialect := known.find? (·.name == name)

end Dialect

end DialectSql
