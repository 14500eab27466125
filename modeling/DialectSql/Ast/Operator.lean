namespace DialectSql

inductive ComparisonOperator
  | equal
  | notEqual
  | lessThan
  | lessThanOrEqual
  | greaterThan
  | greaterThanOrEqual
  | distinct
  | notDistinct
deriving DecidableEq, Repr

namespace ComparisonOperator

def all : List ComparisonOperator :=
  [equal, notEqual, lessThan, lessThanOrEqual, greaterThan, greaterThanOrEqual, distinct,
    notDistinct]

def name : ComparisonOperator → String
  | equal => "Equal"
  | notEqual => "NotEqual"
  | lessThan => "LessThan"
  | lessThanOrEqual => "LessThanOrEqual"
  | greaterThan => "GreaterThan"
  | greaterThanOrEqual => "GreaterThanOrEqual"
  | distinct => "Distinct"
  | notDistinct => "NotDistinct"

/-- The operator between its operands, with blanks where it is made of words. -/
def sql : ComparisonOperator → String
  | equal => "="
  | notEqual => "<>"
  | lessThan => "<"
  | lessThanOrEqual => "<="
  | greaterThan => ">"
  | greaterThanOrEqual => ">="
  | distinct => " is distinct from "
  | notDistinct => " is not distinct from "

/-- The operator that holds when the operands are swapped. -/
def invert : ComparisonOperator → ComparisonOperator
  | lessThan => greaterThan
  | lessThanOrEqual => greaterThanOrEqual
  | greaterThan => lessThan
  | greaterThanOrEqual => lessThanOrEqual
  | op => op

def negate : ComparisonOperator → ComparisonOperator
  | equal => notEqual
  | notEqual => equal
  | lessThan => greaterThanOrEqual
  | lessThanOrEqual => greaterThan
  | greaterThan => lessThanOrEqual
  | greaterThanOrEqual => lessThan
  | distinct => notDistinct
  | notDistinct => distinct

def sharper : ComparisonOperator → ComparisonOperator
  | lessThanOrEqual => lessThan
  | greaterThanOrEqual => greaterThan
  | op => op

def broader : ComparisonOperator → ComparisonOperator
  | lessThan => lessThanOrEqual
  | greaterThan => greaterThanOrEqual
  | op => op

def isDistinctness : ComparisonOperator → Bool
  | distinct | notDistinct => true
  | _ => false

def isOrdering : ComparisonOperator → Bool
  | lessThan | lessThanOrEqual | greaterThan | greaterThanOrEqual => true
  | _ => false

end ComparisonOperator

inductive BinaryOp
  | add
  | sub
  | mul
  | div
  | mod
  | concat
deriving DecidableEq, Repr

namespace BinaryOp

def all : List BinaryOp := [add, sub, mul, div, mod, concat]

def name : BinaryOp → String
  | add => "Add"
  | sub => "Sub"
  | mul => "Mul"
  | div => "Div"
  | mod => "Mod"
  | concat => "Concat"

def sql : BinaryOp → String
  | add => "+"
  | sub => "-"
  | mul => "*"
  | div => "/"
  | mod => "%"
  | concat => "||"

def precedence : BinaryOp → Nat
  | add | sub | concat => 8
  | mul | div | mod => 9

/-- A right operand of the same precedence needs parentheses. -/
def isLeftAssociativeOnly : BinaryOp → Bool
  | sub | div | mod => true
  | _ => false

end BinaryOp

inductive JunctionNature
  | conjunction
  | disjunction
deriving DecidableEq, Repr

namespace JunctionNature

def all : List JunctionNature := [conjunction, disjunction]

def name : JunctionNature → String
  | conjunction => "Conjunction"
  | disjunction => "Disjunction"

def separator : JunctionNature → String
  | conjunction => " and "
  | disjunction => " or "

/-- A junction without members is true as a conjunction and false as a disjunction. -/
def emptySql : JunctionNature → String
  | conjunction => "1=1"
  | disjunction => "1=0"

end JunctionNature

inductive Quantifier
  | any
  | all
deriving DecidableEq, Repr

namespace Quantifier

def values : List Quantifier := [any, all]

def name : Quantifier → String
  | any => "Any"
  | all => "All"

def sql : Quantifier → String
  | any => "any"
  | all => "all"

end Quantifier

inductive SummarizationKind
  | rollup
  | cube
deriving DecidableEq, Repr

namespace SummarizationKind

def all : List SummarizationKind := [rollup, cube]

def name : SummarizationKind → String
  | rollup => "Rollup"
  | cube => "Cube"

def sql : SummarizationKind → String
  | rollup => "rollup"
  | cube => "cube"

end SummarizationKind

inductive JoinType
  | inner
  | left
  | right
  | full
  | cross
deriving DecidableEq, Repr

namespace JoinType

def all : List JoinType := [inner, left, right, full, cross]

def name : JoinType → String
  | inner => "Inner"
  | left => "Left"
  | right => "Right"
  | full => "Full"
  | cross => "Cross"

def sql : JoinType → String
  | inner => "inner"
  | left => "left"
  | right => "right"
  | full => "full"
  | cross => "cross"

end JoinType

inductive SetOperator
  | union
  | unionAll
  | intersect
  | intersectAll
  | except
  | exceptAll
deriving DecidableEq, Repr

namespace SetOperator

def all : List SetOperator := [union, unionAll, intersect, intersectAll, except, exceptAll]

def name : SetOperator → String
  | union => "Union"
  | unionAll => "UnionAll"
  | intersect => "Intersect"
  | intersectAll => "IntersectAll"
  | except => "Except"
  | exceptAll => "ExceptAll"

def sql : SetOperator → String
  | union => "union"
  | unionAll => "union all"
  | intersect => "intersect"
  | intersectAll => "intersect all"
  | except => "except"
  | exceptAll => "except all"

def isAll : SetOperator → Bool
  | unionAll | intersectAll | exceptAll => true
  | _ => false

end SetOperator

inductive OrderDirection
  | asc
  | desc
deriving DecidableEq, Repr

namespace OrderDirection

def all : List OrderDirection := [asc, desc]

def name : OrderDirection → String
  | asc => "Asc"
  | desc => "Desc"

end OrderDirection

inductive NullOrdering
  | first
  | last
deriving DecidableEq, Repr

namespace NullOrdering

def all : List NullOrdering := [first, last]

def name : NullOrdering → String
  | first => "First"
  | last => "Last"

def sql : NullOrdering → String
  | first => "nulls first"
  | last => "nulls last"

end NullOrdering

inductive FetchKind
  | rowsOnly
  | withTies
deriving DecidableEq, Repr

namespace FetchKind

def all : List FetchKind := [rowsOnly, withTies]

def name : FetchKind → String
  | rowsOnly => "RowsOnly"
  | withTies => "WithTies"

end FetchKind

inductive SearchKind
  | breadthFirst
  | depthFirst
deriving DecidableEq, Repr

namespace SearchKind

def all : List SearchKind := [breadthFirst, depthFirst]

def name : SearchKind → String
  | breadthFirst => "BreadthFirst"
  | depthFirst => "DepthFirst"

def sql : SearchKind → String
  | breadthFirst => "breadth first"
  | depthFirst => "depth first"

end SearchKind

inductive CteMaterialization
  | undefined
  | materialized
  | notMaterialized
deriving DecidableEq, Repr

namespace CteMaterialization

def all : List CteMaterialization := [undefined, materialized, notMaterialized]

def name : CteMaterialization → String
  | undefined => "Undefined"
  | materialized => "Materialized"
  | notMaterialized => "NotMaterialized"

end CteMaterialization

inductive ParameterUsage
  | set
  | restrict
deriving DecidableEq, Repr

namespace ParameterUsage

def all : List ParameterUsage := [set, restrict]

def name : ParameterUsage → String
  | set => "Set"
  | restrict => "Restrict"

def sql : ParameterUsage → String
  | set => "set"
  | restrict => "restrict"

end ParameterUsage

inductive FrameUnit
  | rows
  | range
deriving DecidableEq, Repr

namespace FrameUnit

def all : List FrameUnit := [rows, range]

def name : FrameUnit → String
  | rows => "Rows"
  | range => "Range"

def sql : FrameUnit → String
  | rows => "rows"
  | range => "range"

end FrameUnit

inductive FrameBound
  | unboundedPreceding
  | preceding (rows : UInt64)
  | currentRow
  | following (rows : UInt64)
  | unboundedFollowing
deriving DecidableEq, Repr

def FrameBound.sql : FrameBound → String
  | .unboundedPreceding => "unbounded preceding"
  | .preceding n => toString n.toNat ++ " preceding"
  | .currentRow => "current row"
  | .following n => toString n.toNat ++ " following"
  | .unboundedFollowing => "unbounded following"

/-- A frame without an end reaches to the current row. -/
structure WindowFrame where
  unit : FrameUnit
  start : FrameBound
  stop : Option FrameBound
deriving DecidableEq, Repr

def WindowFrame.sql (frame : WindowFrame) : String :=
  frame.unit.sql ++ " " ++ match frame.stop with
    | some stop => "between " ++ frame.start.sql ++ " and " ++ stop.sql
    | none => frame.start.sql

end DialectSql
