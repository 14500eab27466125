import DialectSql.Render.Translation

namespace DialectSql

/-- A query that is being rendered, and whether it belongs to the top level of its statement. -/
structure Frame where
  query : Query
  root : Bool

/-- A rendering in progress: what was rendered so far, and the queries around the place reached,
the innermost first. -/
structure Session where
  dialect : Dialect
  lock : LockOptions
  pieces : List Piece
  frames : List Frame

/-- One request to a session. Where a rule is given it stands in for the dialect's. -/
inductive RenderCall
  | text (s : String)
  | parameter (slot : BindSlot)
  | gap (gap : CapabilityGap)
  | expression (e : Expr)
  | predicate (p : Predicate)
  | expressions (es : List Expr)
  | summarization (kind : SummarizationKind) (groupings : List Expr)
  | sortKeys (keys : List SortKey)
  | rowsTo (offset fetch : Option Expr) (kind : FetchKind)
  | integerSum (terms : List Expr) (extra : Int64)
  | query (q : Query)
  | nestedQuery (q : Query)
  | selections (clause : SelectClause) (viaDialect : Bool)
  | rowLimit (q : Query) (viaDialect : Bool)
  | upperBound (rule : Option UpperBoundRule) (fetch : Expr) (offset : Option Expr) (extra : Int64)
  | comparison (rule : Option ComparisonRule) (lhs : Expr) (op : ComparisonOperator) (rhs : Expr)
  | tuples (lhs rhs : List Expr) (op : ComparisonOperator) (bounded : Bool)
  | subqueryTuple (lhs : List Expr) (q : Query) (op : ComparisonOperator) (quantifier : Quantifier)
      (negated : Bool)
  | selectTuple (rule : Option SelectTupleRule) (selections : List Selection) (tuple : List Expr)
      (op : ComparisonOperator)
  | tableGroup (group : TableGroup)
  | tableGroupOn (group : TableGroup) (p : Predicate)
  | joinedGroup (join : TableJoin) (p : Option Predicate)
  | join (join : TableJoin)
  | partitionItem (rule : Option PartitionRule) (e : Expr)
  | lockStrategy (rule : Option LockingRule) (spec : QuerySpec) (followOn : Option Bool)
  | searchClause (rule : Option SearchRule) (cte : Cte)
  | cycleClause (rule : Option CycleRule) (cte : Cte)
  | arity (lhs rhs : Nat)
  | crossJoin (join : TableJoin)

namespace Session

def start (d : Dialect) (lock : LockOptions) : Session := ⟨d, lock, [], []⟩

def sql (s : Session) : String := Translation.sql s.dialect.capabilities.placeholder s.pieces

def depth (s : Session) : Nat := s.frames.length

def push (s : Session) (q : Query) (root : Bool) : Session :=
  { s with frames := ⟨q, root⟩ :: s.frames }

def pop (s : Session) : Session := { s with frames := s.frames.tail }

/-- Without an enclosing query the place is at the top level of a statement. -/
def inRoot (s : Session) : Bool :=
  match s.frames with
  | [] => true
  | f :: _ => f.root

def currentSpec (s : Session) : Option QuerySpec :=
  match s.frames with
  | ⟨.spec spec, _⟩ :: _ => some spec
  | _ => none

/-- The operator of the innermost enclosing set operation. -/
def enclosingGroup (s : Session) : Option SetOperator :=
  s.frames.findSome? fun f => match f.query with
    | .group g => some g.operator
    | .spec _ => none

def underSetOperation (s : Session) : Bool := s.enclosingGroup.isSome

def lockScope (s : Session) : Option LockScope :=
  if s.inRoot then some ⟨s.lock, s.underSetOperation⟩ else none

def limitOf (d : Dialect) (e : Expr) : Limit := .ofExpr e (Render.expression d e)

def selectList (s : Session) (c : SelectClause) : Output :=
  Render.selectList c.distinct
    ((Render.selections s.dialect c.selections).map fun (o, a) => o.output ++ a)

/-- The select list, behind the row range of the enclosing query where the dialect wants it. -/
def selectListOf (s : Session) (c : SelectClause) : Output :=
  match s.currentSpec with
  | some spec =>
    Render.selectListOf s.dialect (spec.offset.map (limitOf s.dialect))
      (spec.fetch.map (limitOf s.dialect))
      spec.fetchKind (s.selectList c)
  | none => s.selectList c

def strategy (s : Session) (rule : Option LockingRule) (spec : QuerySpec) (followOn : Option Bool) :
    Except TranslateError LockStrategy :=
  Locking.strategyFor (rule.getD s.dialect.strategies.locking) s.dialect.capabilities.locking
    s.underSetOperation spec.isAggregating followOn

def compareBy (d : Dialect) (rule : Option ComparisonRule) (lhs : Operand) (op : ComparisonOperator)
    (rhs : Operand) : Output :=
  match rule with
  | some .standard => Comparison.standard d lhs op rhs
  | some .intersect => Comparison.intersect d lhs op rhs
  | _ => Comparison.render d lhs op rhs

def selectTupleBy (d : Dialect) (rule : Option SelectTupleRule) (selections tuple : List Operand)
    (op : ComparisonOperator) : Output :=
  match rule with
  | some .standard => Comparison.selectTupleStandard d selections tuple op
  | some .emulate => Comparison.tuples d selections tuple op true
  | _ => Comparison.selectTuple d selections tuple op

def joinOutput (d : Dialect) (j : TableJoin) : Output :=
  Render.joinHead d j.type j.predicate j.lateral ++
    Render.tableReference d j.joined.label j.joined.reference ++
    Render.joinCondition d j.type j.predicate j.lateral (Render.optionalPredicate d j.predicate)

def output (s : Session) : RenderCall → Output :=
  let d := s.dialect
  fun
  | .text t => .word t
  | .parameter slot => .ofPieces [.slot slot]
  | .gap g => .ofPieces [.gap g]
  | .expression e => Render.expression d e
  | .predicate p => Render.predicate d p
  | .expressions es => .list (operandOutputs (Render.operands d es))
  | .summarization kind groupings =>
    Render.summarization d kind (operandOutputs (Render.operands d groupings))
  | .sortKeys keys => .list (Render.sortKeys d keys)
  | .rowsTo offset fetch kind =>
      RowLimit.rowsTo d (offset.map (limitOf d)) (fetch.map (limitOf d)) kind
  | .integerSum terms extra => RowLimit.integerSum (terms.map (limitOf d)) extra
  | .query q => (Render.query d s.lockScope q).output
  | .nestedQuery q => (Render.query d none q).output
  | .selections c viaDialect => if viaDialect then s.selectListOf c else s.selectList c
  | .rowLimit q viaDialect =>
    let offset := q.offset.map (limitOf d)
    let fetch := q.fetch.map (limitOf d)
    if viaDialect then RowLimit.clause d offset fetch q.fetchKind
    else RowLimit.trailing d offset fetch q.fetchKind
  | .upperBound rule fetch offset extra =>
    RowLimit.upperBound (rule.getD d.strategies.upperBound) (limitOf d fetch)
      (offset.map (limitOf d)) extra
  | .comparison rule lhs op rhs => compareBy d rule (Render.operand d lhs) op (Render.operand d rhs)
  | .tuples lhs rhs op bounded =>
      Comparison.tuples d (Render.operands d lhs) (Render.operands d rhs) op bounded
  | .subqueryTuple lhs q op quantifier negated =>
    Comparison.subquery d (Render.operands d lhs) (Render.query d none q) op quantifier negated
  | .selectTuple rule selections tuple op =>
    selectTupleBy d rule ((Render.selections d selections).map (·.1)) (Render.operands d tuple) op
  | .tableGroup g => Render.tableReference d g.label g.reference
  | .tableGroupOn g p =>
      Render.tableReference d g.label g.reference ++ .word " on " ++ Render.predicate d p
  | .joinedGroup j p =>
    Render.tableReference d j.joined.label j.joined.reference ++
      .clause " on " (Render.optionalPredicate d p)
  | .join j => joinOutput d j
  | .partitionItem rule e =>
    Render.partitionItem (rule.getD d.strategies.partition) e (Render.expression d e)
  | .lockStrategy rule spec followOn =>
    match s.strategy rule spec followOn with
    | .error e => .fail e
    | .ok _ => .empty
  | .searchClause rule cte => Render.searchClause d (rule.getD d.strategies.search) cte.search
  | .cycleClause rule cte => Render.cycleClause d (rule.getD d.strategies.cycle) cte.name cte.cycle
  | .arity lhs rhs => checkArity lhs rhs
  | .crossJoin j => Render.checkCrossJoin j.predicate

def pendingJoins : RenderCall → Option (List TableJoin)
  | .tableGroup g => some g.joins
  | .tableGroupOn g _ => some g.joins
  | .joinedGroup j _ => some j.joined.joins
  | .join j => some j.joined.joins
  | _ => none

/-- Appends the pieces of an output, also of one that fails. -/
def emit (s : Session) (o : Output) : Session × Option TranslateError :=
  ({ s with pieces := s.pieces ++ o.pieces }, o.failure)

def run (s : Session) (c : RenderCall) : Session × Option TranslateError := s.emit (s.output c)

/-- Renders a statement behind all that was rendered before. -/
def finish (s : Session) (statement : Statement) : Except TranslateError TranslatedSql :=
  Translation.ofOutput s.dialect.capabilities.placeholder
    (.ofPieces s.pieces ++ Render.statement s.dialect s.lock statement)

end Session

end DialectSql
