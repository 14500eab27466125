import DialectSql.Ast.DataType
import DialectSql.Ast.Operator
import DialectSql.Value

namespace DialectSql

/-- What a placeholder stands for: a value, or the value that will be bound to a column. -/
inductive BindSlot
  | value (value : SqlValue)
  | column (table column : String) (usage : ParameterUsage)
deriving DecidableEq, Inhabited, Repr

structure NamedTable where
  schema : Option String
  name : String
deriving DecidableEq, Inhabited, Repr

mutual

inductive Expr
  | column (qualifier : Option String) (name : String)
  | literal (value : SqlValue)
  | parameter (slot : BindSlot)
  | tuple (elements : List Expr)
  | summarization (kind : SummarizationKind) (groupings : List Expr)
  | binary (left : Expr) (op : BinaryOp) (right : Expr)
  | negate (operand : Expr)
  | function (name : String) (args : List Expr) (distinct : Bool)
  | case (branches : List WhenClause) (otherwise : Option Expr)
  | cast (expr : Expr) (type : DataType)
  | subquery (query : Query)
  | quantified (quantifier : Quantifier) (query : Query)
  | windowed (function : Expr) (partitionBy : List Expr) (orderBy : List SortKey)
      (frame : Option WindowFrame)
  | star (qualifier : Option String)

inductive Predicate
  | comparison (lhs : Expr) (op : ComparisonOperator) (rhs : Expr)
  | junction (nature : JunctionNature) (members : List Predicate)
  | negated (inner : Predicate)
  | nullCheck (expr : Expr) (negated : Bool)
  | inList (expr : Expr) (list : List Expr) (negated : Bool)
  | inSubquery (expr : Expr) (query : Query) (negated : Bool)
  | exists (query : Query) (negated : Bool)
  | between (expr low high : Expr) (negated : Bool)
  | like (expr pattern : Expr) (escape : Option Char) (negated : Bool)
  | boolean (expr : Expr)

structure WhenClause where
  condition : Predicate
  result : Expr

structure SortKey where
  expr : Expr
  direction : OrderDirection
  nulls : Option NullOrdering

structure Selection where
  expr : Expr
  label : Option String

inductive TableReference
  | named (table : NamedTable)
  | derived (query : Query) (columns : List String)

structure TableGroup where
  reference : TableReference
  label : Option String
  joins : List TableJoin

structure TableJoin where
  type : JoinType
  joined : TableGroup
  predicate : Option Predicate
  lateral : Bool

structure QuerySpec where
  distinct : Bool
  selections : List Selection
  roots : List TableGroup
  restriction : Option Predicate
  groupBy : List Expr
  having : Option Predicate
  orderBy : List SortKey
  offset : Option Expr
  fetch : Option Expr
  fetchKind : FetchKind

structure QueryGroup where
  operator : SetOperator
  members : List Query
  orderBy : List SortKey
  offset : Option Expr
  fetch : Option Expr
  fetchKind : FetchKind

inductive Query
  | spec (spec : QuerySpec)
  | group (group : QueryGroup)

end

/-- The parts of a select list, as the builder and the live translator pass it around. -/
structure SelectClause where
  distinct : Bool
  selections : List Selection

structure SearchItem where
  column : String
  direction : OrderDirection
deriving DecidableEq, Repr

structure SearchClause where
  kind : SearchKind
  items : List SearchItem
  sequenceColumn : String
deriving DecidableEq, Repr

structure CycleClause where
  columns : List String
  markColumn : String
  pathColumn : Option String
  cycleValue : SqlValue
  nonCycleValue : SqlValue
deriving DecidableEq, Repr

structure Cte where
  name : String
  columns : List String
  query : Query
  recursive : Bool
  search : Option SearchClause
  cycle : Option CycleClause
  materialization : CteMaterialization

structure SelectStatement where
  ctes : List Cte
  query : Query

inductive InsertSource
  | values (rows : List (List Expr))
  | query (select : SelectStatement)
  | defaultValues

structure InsertStatement where
  target : NamedTable
  columns : List String
  source : InsertSource

structure Assignment where
  column : String
  value : Expr

structure UpdateStatement where
  target : NamedTable
  assignments : List Assignment
  restriction : Option Predicate

structure DeleteStatement where
  target : NamedTable
  restriction : Option Predicate

inductive Statement
  | select (statement : SelectStatement)
  | insert (statement : InsertStatement)
  | update (statement : UpdateStatement)
  | delete (statement : DeleteStatement)

end DialectSql
