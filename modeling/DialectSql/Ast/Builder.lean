import DialectSql.Ast.Statement

namespace DialectSql

namespace Expr

def integer (n : Int64) : Expr := .literal (.int n)

def float (x : Binary64) : Expr := .literal (.float x)

def string (s : String) : Expr := .literal (.text s)

def boolean (b : Bool) : Expr := .literal (.bool b)

def null : Expr := .literal .null

def value (v : SqlValue) : Expr := .parameter (.value v)

def columnParameter (table column : String) (usage : ParameterUsage) : Expr :=
  .parameter (.column table column usage)

def rollup (groupings : List Expr) : Expr := .summarization .rollup groupings

def cube (groupings : List Expr) : Expr := .summarization .cube groupings

def call (name : String) (args : List Expr) : Expr := .function name args false

def countStar : Expr := .call "count" [.star none]

def any (query : Query) : Expr := .quantified .any query

def all (query : Query) : Expr := .quantified .all query

def plus (left right : Expr) : Expr := .binary left .add right

def concat (left right : Expr) : Expr := .binary left .concat right

def isTuple : Expr → Bool
  | .tuple _ => true
  | _ => false

/-- The elements of a tuple; any other expression is its own only element. -/
def elements : Expr → List Expr
  | .tuple es => es
  | e => [e]

def compare (left : Expr) (op : ComparisonOperator) (right : Expr) : Predicate :=
  .comparison left op right

def isNull (e : Expr) : Predicate := .nullCheck e false

def isNotNull (e : Expr) : Predicate := .nullCheck e true

def inList (e : Expr) (list : List Expr) : Predicate := .inList e list false

def notInList (e : Expr) (list : List Expr) : Predicate := .inList e list true

def inSubquery (e : Expr) (query : Query) : Predicate := .inSubquery e query false

def between (e low high : Expr) : Predicate := .between e low high false

def like (e pattern : Expr) : Predicate := .like e pattern none false

end Expr

namespace Predicate

def conjunction (members : List Predicate) : Predicate := .junction .conjunction members

def disjunction (members : List Predicate) : Predicate := .junction .disjunction members

def alwaysTrue : Predicate := conjunction []

def existsIn (query : Query) : Predicate := .exists query false

def isEmpty : Predicate → Bool
  | .junction _ members => members.isEmpty
  | _ => false

/-- The members a predicate brings to a junction of the given nature. -/
def membersFor (nature : JunctionNature) : Predicate → List Predicate
  | .junction inner members => if inner = nature then members else [.junction inner members]
  | p => [p]

/-- Joins two predicates in one junction; a junction of the same nature gives its members. -/
def combine (nature : JunctionNature) (p q : Predicate) : Predicate :=
  .junction nature (p.membersFor nature ++ q.membersFor nature)

def and (p q : Predicate) : Predicate := p.combine .conjunction q

def or (p q : Predicate) : Predicate := p.combine .disjunction q

def restrict (existing : Option Predicate) (p : Predicate) : Option Predicate :=
  match existing with
  | none => some p
  | some q => some (q.and p)

end Predicate

namespace SortKey

def asc (e : Expr) : SortKey := ⟨e, .asc, none⟩

def desc (e : Expr) : SortKey := ⟨e, .desc, none⟩

def withNulls (s : SortKey) (nulls : NullOrdering) : SortKey := { s with nulls := some nulls }

end SortKey

namespace QuerySpec

def empty : QuerySpec := ⟨false, [], [], none, [], none, [], none, none, .rowsOnly⟩

def select (s : QuerySpec) (e : Expr) (label : Option String) : QuerySpec :=
  { s with selections := s.selections ++ [⟨e, label⟩] }

def asDistinct (s : QuerySpec) : QuerySpec := { s with distinct := true }

def addRoot (s : QuerySpec) (group : TableGroup) : QuerySpec :=
  { s with roots := s.roots ++ [group] }

def restrict (s : QuerySpec) (p : Predicate) : QuerySpec :=
  { s with restriction := Predicate.restrict s.restriction p }

def addGrouping (s : QuerySpec) (e : Expr) : QuerySpec := { s with groupBy := s.groupBy ++ [e] }

def withHaving (s : QuerySpec) (p : Predicate) : QuerySpec := { s with having := some p }

def addSort (s : QuerySpec) (key : SortKey) : QuerySpec := { s with orderBy := s.orderBy ++ [key] }

def withOffset (s : QuerySpec) (e : Expr) : QuerySpec := { s with offset := some e }

def withFetch (s : QuerySpec) (e : Expr) : QuerySpec := { s with fetch := some e }

/-- Rows are merged by distinct, grouping or a group condition. -/
def isAggregating (s : QuerySpec) : Bool := s.distinct || !s.groupBy.isEmpty || s.having.isSome

end QuerySpec

namespace QueryGroup

def ofMembers (operator : SetOperator) (members : List Query) : QueryGroup :=
  ⟨operator, members, [], none, none, .rowsOnly⟩

def addSort (g : QueryGroup) (key : SortKey) : QueryGroup :=
  { g with orderBy := g.orderBy ++ [key] }

def withOffset (g : QueryGroup) (e : Expr) : QueryGroup := { g with offset := some e }

def withFetch (g : QueryGroup) (e : Expr) : QueryGroup := { g with fetch := some e }

end QueryGroup

namespace Query

def orderBy : Query → List SortKey
  | .spec s => s.orderBy
  | .group g => g.orderBy

def offset : Query → Option Expr
  | .spec s => s.offset
  | .group g => g.offset

def fetch : Query → Option Expr
  | .spec s => s.fetch
  | .group g => g.fetch

def fetchKind : Query → FetchKind
  | .spec s => s.fetchKind
  | .group g => g.fetchKind

def hasRowLimit (q : Query) : Bool := q.offset.isSome || q.fetch.isSome

end Query

namespace TableGroup

def table (name : String) : TableGroup := ⟨.named ⟨none, name⟩, none, []⟩

def derived (query : Query) : TableGroup := ⟨.derived query [], none, []⟩

def withAlias (g : TableGroup) (label : String) : TableGroup := { g with label := some label }

def addJoin (g : TableGroup) (join : TableJoin) : TableGroup :=
  { g with joins := g.joins ++ [join] }

end TableGroup

namespace TableJoin

def inner (joined : TableGroup) (p : Predicate) : TableJoin := ⟨.inner, joined, some p, false⟩

def left (joined : TableGroup) (p : Predicate) : TableJoin := ⟨.left, joined, some p, false⟩

def cross (joined : TableGroup) : TableJoin := ⟨.cross, joined, none, false⟩

def asLateral (j : TableJoin) : TableJoin := { j with lateral := true }

end TableJoin

namespace Cte

def ofQuery (name : String) (query : Query) : Cte :=
  ⟨name, [], query, false, none, none, .undefined⟩

end Cte

namespace SelectStatement

def ofQuery (query : Query) : SelectStatement := ⟨[], query⟩

def withCte (s : SelectStatement) (cte : Cte) : SelectStatement :=
  { s with ctes := s.ctes ++ [cte] }

end SelectStatement

namespace InsertStatement

def into (target : NamedTable) : InsertStatement := ⟨target, [], .values [[]]⟩

/-- Names a further column and adds its value to every row. -/
def value (s : InsertStatement) (column : String) (e : Expr) : InsertStatement :=
  { s with
    columns := s.columns ++ [column]
    source := match s.source with
      | .values rows => .values (rows.map (· ++ [e]))
      | source => source }

end InsertStatement

namespace UpdateStatement

def table (target : NamedTable) : UpdateStatement := ⟨target, [], none⟩

def set (s : UpdateStatement) (column : String) (e : Expr) : UpdateStatement :=
  { s with assignments := s.assignments ++ [⟨column, e⟩] }

def restrict (s : UpdateStatement) (p : Predicate) : UpdateStatement :=
  { s with restriction := Predicate.restrict s.restriction p }

end UpdateStatement

namespace DeleteStatement

def fromTable (target : NamedTable) : DeleteStatement := ⟨target, none⟩

def restrict (s : DeleteStatement) (p : Predicate) : DeleteStatement :=
  { s with restriction := Predicate.restrict s.restriction p }

end DeleteStatement

end DialectSql
