import DialectSql.Proofs.Existence.Emulation
import DialectSql.Proofs.Locking.Chunks
import DialectSql.Proofs.Slots.Traversal
import DialectSql.Render.Session

namespace DialectSql

/-- What a rendering call does, one after the other: it emits text, makes a call, or renders inside
a query, whose frame is taken off again when that has ended. -/
inductive Action
  | emit (o : Output)
  | call (c : RenderCall)
  | within (q : Query) (root : Bool) (actions : List Action)

namespace Action

def text (w : String) : Action := .emit (.word w)

def fail (e : TranslateError) : Action := .emit (.fail e)

def expression (e : Expr) : Action := .call (.expression e)

def predicate (p : Predicate) : Action := .call (.predicate p)

def when (condition : Bool) (actions : List Action) : List Action := if condition then actions else []

def parenthesized (actions : List Action) : List Action := text "(" :: (actions ++ [text ")"])

def wrap (condition : Bool) (actions : List Action) : List Action :=
  if condition then parenthesized actions else actions

def separated (separator : String) : List (List Action) → List Action
  | [] => []
  | [ts] => ts
  | ts :: us :: rest => ts ++ text separator :: separated separator (us :: rest)

def nested (q : Query) : List Action := parenthesized [.call (.nestedQuery q)]

def plain (lhs : Expr) (op : ComparisonOperator) (rhs : Expr) : List Action :=
  [expression lhs, text op.sql, expression rhs]

def nullTest (e : Expr) (negated : Bool) : List Action :=
  [expression e, text (if negated then " is not null" else " is null")]

def distinctByNullTests (lhs : Expr) (op : ComparisonOperator) (rhs : Expr) : List Action :=
  parenthesized <|
    if op = .distinct then
      plain lhs .notEqual rhs ++ text " or " ::
        nullTest lhs false ++ text " and " :: nullTest rhs true ++ text " or " ::
        nullTest lhs true ++ text " and " :: nullTest rhs false
    else
      plain lhs .equal rhs ++ text " or " ::
        nullTest lhs false ++ text " and " :: nullTest rhs false

def lexicographic (op : ComparisonOperator) : List Expr → List Expr → List Action
  | [l], r :: _ => plain l op r
  | l :: ls, r :: rs =>
    plain l op.sharper r ++ text " or " :: plain l .equal r ++ text " and (" ::
      lexicographic op ls rs ++ [text ")"]
  | _, _ => []

def leadingBound (op : ComparisonOperator) : List Expr → List Expr → List Action
  | [l], r :: _ => plain l op r
  | l :: ls, r :: rs =>
    plain l op.broader r ++ text " and (" :: plain l op.sharper r ++ text " or " ::
      leadingBound op ls rs ++ [text ")"]
  | _, _ => []

def intersection (d : Dialect) (ls : List Expr) (op : ComparisonOperator) (rs : List Expr) :
    List Action :=
  .emit (checkArity ls.length rs.length) ::
    match d.capabilities.dualTable with
    | none => [fail (.unsupported .intersectWithoutDummyTable)]
    | some dual =>
      when (op == .distinct) [text "not "] ++
        [text "exists (select ", .call (.expressions ls), text " from ", .emit (.name dual),
          text " intersect select ", .call (.expressions rs), text " from ", .emit (.name dual),
          text ")"]

def standard (d : Dialect) (lhs : Expr) (op : ComparisonOperator) (rhs : Expr) : List Action :=
  match rhs with
  | .quantified quantifier q =>
    if lhs.isTuple && !d.capabilities.rowValueInQuantified then
      [.call (.subqueryTuple lhs.elements q op quantifier false)]
    else plain lhs op rhs
  | .subquery q =>
    if lhs.isTuple && !d.capabilities.rowValueConstructor then
      [.call (.subqueryTuple lhs.elements q op .any false)]
    else plain lhs op rhs
  | .tuple rs =>
    if lhs.isTuple then
      .emit (checkArity lhs.elements.length rs.length) ::
        if d.capabilities.rowValueConstructor &&
            (!op.isDistinctness || d.capabilities.distinctFrom == .native) then
          plain lhs op rhs
        else [.call (.tuples lhs.elements rs op true)]
    else [fail (.tupleArity 1 rs.length)]
  | _ =>
    if lhs.isTuple then [fail (.tupleArity lhs.elements.length 1)]
    else if op.isDistinctness && d.capabilities.distinctFrom == .emulated then
      distinctByNullTests lhs op rhs
    else plain lhs op rhs

def comparison (d : Dialect) (rule : ComparisonRule) (lhs : Expr) (op : ComparisonOperator)
    (rhs : Expr) : List Action :=
  match rule with
  | .standard => standard d lhs op rhs
  | .intersect =>
    if op.isDistinctness then intersection d lhs.elements op rhs.elements
    else standard d lhs op rhs
  | .lexicographic =>
    if lhs.isTuple && rhs.isTuple then [.call (.tuples lhs.elements rhs.elements op false)]
    else standard d lhs op rhs

def tuples (ls rs : List Expr) (op : ComparisonOperator) (bounded : Bool) : List Action :=
  .emit (checkArity ls.length rs.length) ::
    if ls.isEmpty then [fail (.invalid .emptyTuples)]
    else
      let plains := (ls.zip rs).map fun p => plain p.1 op p.2
      let comparisons := (ls.zip rs).map fun p => [.call (.comparison none p.1 op p.2)]
      parenthesized <|
        match op with
        | .equal => separated " and " plains
        | .notEqual => separated " or " plains
        | .distinct => separated " or " comparisons
        | .notDistinct => separated " and " comparisons
        | op => if bounded then leadingBound op ls rs else lexicographic op ls rs

def selectTuple (d : Dialect) (rule : SelectTupleRule) (columns tuple : List Expr)
    (op : ComparisonOperator) : List Action :=
  match rule with
  | .standard =>
    if d.capabilities.rowValueConstructor then
      .emit (checkArity columns.length tuple.length) ::
        (parenthesized [.call (.expressions columns)] ++ text op.sql ::
          parenthesized [.call (.expressions tuple)])
    else [.call (.tuples columns tuple op true)]
  | .emulate => [.call (.tuples columns tuple op true)]
  | .lexicographic => [.call (.tuples columns tuple op false)]

def ofExpr (d : Dialect) : Expr → List Action
  | .tuple es => parenthesized [.call (.expressions es)]
  | .summarization kind groupings => [.call (.summarization kind groupings)]
  | .binary left op right =>
    wrap (Render.needsParens op false left) [expression left] ++
      [text " ", text op.sql, text " "] ++
      wrap (Render.needsParens op true right) [expression right]
  | .negate e =>
    text "-" :: wrap (match e with | .binary .. | .negate _ => true | _ => false) [expression e]
  | .function name args distinct =>
    [.emit (.name name), text "("] ++ when distinct [text "distinct "] ++
      [.call (.expressions args), text ")"]
  | .case branches otherwise =>
    if branches.isEmpty then [fail (.invalid .emptyCase)]
    else
      text "case" :: (branches.flatMap fun b =>
          [text " when ", predicate b.condition, text " then ", expression b.result]) ++
        otherwise.toList.flatMap (fun e => [text " else ", expression e]) ++ [text " end"]
  | .cast e type =>
      [text "cast(", expression e, text " as ", .emit (.name type.sql), text ")"]
  | .subquery q => nested q
  | .quantified quantifier q => [text quantifier.sql, text " "] ++ nested q
  | .windowed f items keys frame =>
    let item (e : Expr) : List Action := [.call (.partitionItem none e)]
    let partition := if items.isEmpty then []
      else [text "partition by " :: separated ", " (items.map item)]
    let order := if keys.isEmpty then [] else [[text "order by ", .call (.sortKeys keys)]]
    let frames := frame.toList.map fun f => [text f.sql]
    [expression f, text " over "] ++
      parenthesized (separated " " (partition ++ order ++ frames))
  | e => [.emit (Render.expression d e)]

def ofPredicate (d : Dialect) : Predicate → List Action
  | .comparison lhs op rhs => [.call (.comparison none lhs op rhs)]
  | .junction nature [] => [text nature.emptySql]
  | .junction _ [p] => [predicate p]
  | .junction nature members =>
    separated nature.separator (members.map fun p => wrap (Render.isCompound p) [predicate p])
  | .negated p => text "not " :: parenthesized [predicate p]
  | .nullCheck e negated =>
    if e.isTuple && 1 < e.elements.length then
      parenthesized (separated " and " (e.elements.map (nullTest · negated)))
    else nullTest e negated
  | .inList e items negated =>
    if items.isEmpty then [text (if negated then "1=1" else "1=0")]
    else
      when e.isTuple (items.map fun i => .emit (checkArity e.elements.length i.elements.length)) ++
        if e.isTuple && !d.capabilities.rowValueInList then
          when negated [text "not "] ++ parenthesized (separated " or "
            (items.map fun i => [.call (.tuples e.elements i.elements .equal false)]))
        else
          [expression e, text (Render.membership negated), .call (.expressions items), text ")"]
  | .inSubquery e q negated =>
    if e.isTuple && !d.capabilities.rowValueInQuantified then
      [.call (.subqueryTuple e.elements q .equal .any negated)]
    else [expression e, text (Render.membership negated), .call (.nestedQuery q), text ")"]
  | .exists q negated => when negated [text "not "] ++ text "exists " :: nested q
  | .between e low high negated =>
    if (e.isTuple || low.isTuple || high.isTuple) && !d.capabilities.rowValueConstructor then
      [.emit (checkArity e.elements.length low.elements.length),
        .emit (checkArity e.elements.length high.elements.length)] ++
        when negated [text "not "] ++
        parenthesized [.call (.tuples e.elements low.elements .greaterThanOrEqual true),
          text " and ", .call (.tuples e.elements high.elements .lessThanOrEqual true)]
    else
      [expression e, text (if negated then " not between " else " between "), expression low,
        text " and ", expression high]
  | .like e pattern escape negated =>
    [expression e, text (if negated then " not like " else " like "), expression pattern] ++
      escape.toList.flatMap fun c => [text " escape ", .emit (.ofPieces [.quoted c.toString])]
  | .boolean e => [expression e]

def sortKey (d : Dialect) : SortKey → List Action
  | ⟨e, direction, nulls⟩ =>
    let key := expression e :: when (direction == .desc) [text " desc"]
    match nulls with
    | none => key
    | some nulls =>
      if d.capabilities.nullPrecedence then key ++ [text " ", text nulls.sql]
      else
        let (whenNull, otherwise) := match nulls with
          | .first => ("0", "1")
          | .last => ("1", "0")
        [text "case when ", expression e, text " is null then ", text whenNull, text " else ",
          text otherwise, text " end, "] ++ key

def orderBy (keys : List SortKey) : List Action :=
  if keys.isEmpty then [] else [text " order by ", .call (.sortKeys keys)]

def partitionItem (rule : PartitionRule) (item : Expr) : List Action :=
  match rule, item with
  | .standard, .literal _ => [text "()"]
  | .expression, .literal _ => [.emit (.ofPieces [.quoted "0", .word " || ", .quoted "0"])]
  | .expression, .summarization .. => [fail (.unsupported .summarizedPartition)]
  | _, e => [expression e]

/-- The range in front of a select list. -/
def rowsTo (offset fetch : Option Expr) (kind : FetchKind) : List Action :=
  if offset.isNone && fetch.isNone then []
  else if fetch.isSome && kind == .withTies then [fail (.unsupported .fetchWithTies)]
  else
    text "rows " ::
      (match offset with
        | some o => [.call (.integerSum [o] 1)]
        | none => [text "1"]) ++
      text " to " ::
      (match fetch, offset with
        | some f, some o => [.call (.upperBound none f (some o) 0)]
        | some f, none => [expression f]
        | none, _ => [.emit (.ofPieces [.plain (toString RowLimit.unbounded)])]) ++
      [text " "]

/-- The clause at the end of a query. -/
def trailing (d : Dialect) (offset fetch : Option Expr) (kind : FetchKind) : List Action :=
  let withTies := fetch.isSome && kind == .withTies
  match d.capabilities.rowLimit with
  | .offsetFetch =>
    offset.toList.flatMap (fun o => [text " offset ", expression o, text " rows"]) ++
      fetch.toList.flatMap fun f =>
        [.emit (.require (!withTies || d.capabilities.fetchWithTies)
            (.unsupported .fetchWithTies)),
          text " fetch first ", expression f,
          text (if withTies then " rows with ties" else " rows only")]
  | .limitOffset =>
    .emit (.require (!withTies) (.unsupported .fetchWithTies)) ::
      (match fetch, offset with
        | some f, _ => [text " limit ", expression f]
        | none, some _ => when d.capabilities.offsetRequiresLimit [text " limit -1"]
        | none, none => []) ++
      offset.toList.flatMap fun o => [text " offset ", expression o]
  | .rowsTo => []

def upperBound (rule : UpperBoundRule) (fetch : Expr) (offset : Option Expr) (extra : Int64) :
    List Action :=
  match rule with
  | .standard =>
    expression fetch :: offset.toList.flatMap (fun o => [text " + ", expression o]) ++
      [.emit (.when (extra != 0) (.word " + " ++ .ofPieces [.plain (toString extra.toInt)]))]
  | .singleParameter => [.call (.integerSum (fetch :: offset.toList) extra)]

def tableReference (label : Option String) : TableReference → List Action
  | .named t => [.emit (Render.namedTable t ++ .label label)]
  | .derived q columns =>
    .emit (.require label.isSome (.invalid .derivedTableWithoutAlias)) :: nested q ++
      [.emit (.label label),
        .emit (.when (!columns.isEmpty) (.word " " ++ (Output.nameList columns).parenthesized))]

end Action

/-- The condition of a join as it is rendered. A join that has none may be given one that is always
true; a cross join never has one. -/
def TableJoin.condition (d : Dialect) (j : TableJoin) : Option Predicate :=
  if j.type = .cross then none
  else match j.predicate.filter (!·.isEmpty) with
    | some p => some p
    | none => if d.strategies.join = .standard ∨ j.lateral then some .alwaysTrue else none

/-- Joins with the joins that hang off their tables. -/
def TableJoin.forest : List TableJoin → List (JoinTree TableJoin)
  | [] => []
  | j@⟨_, ⟨_, _, joins⟩, _, _⟩ :: js =>
      .node j (TableJoin.forest joins) :: TableJoin.forest js

/-- The joins of a table in the order in which a queue hands them out. -/
def TableGroup.queue (g : TableGroup) : List TableJoin :=
  JoinTree.breadthFirst (TableJoin.forest g.joins)

namespace Action

def join (d : Dialect) (j : TableJoin) : List Action :=
  [.emit (Render.joinHead d j.type j.predicate j.lateral),
    .call (.joinedGroup j (j.condition d))]

def tables (d : Dialect) (roots : List TableGroup) : List Action :=
  if roots.isEmpty then [.emit (Render.missingFrom d)]
  else
    text " from " :: separated ", "
      (roots.map fun g => .call (.tableGroup g) :: g.queue.map fun j => .call (.join j))

def condition (keyword : String) (p : Option Predicate) : List Action :=
  match p with
  | some p => if p.isEmpty then [] else [text keyword, predicate p]
  | none => []

def grouping (items : List Expr) : List Action :=
  if items.isEmpty then []
  else text " group by " :: separated ", " (items.map fun e => [.call (.partitionItem none e)])

/-- A query specification, inside its own frame. -/
def querySpec (s : Session) (spec : QuerySpec) : List Action :=
  [text "select ", .call (.selections ⟨spec.distinct, spec.selections⟩ true)] ++
    tables s.dialect spec.roots ++ condition " where " spec.restriction ++
    grouping spec.groupBy ++ condition " having " spec.having ++ orderBy spec.orderBy ++
    [.call (.rowLimit (.spec spec) true), .emit (Render.lockOf s.dialect s.lockScope spec)]

def member (d : Dialect) (q : Query) : List Action :=
  if Render.isApart q then
    if d.capabilities.simpleQueryGrouping then parenthesized [.call (.query q)]
    else
      text "select * from " :: parenthesized [.call (.query q)] ++
        [text " ", .emit (.ofPieces [.derivedAlias])]
  else [.call (.query q)]

def membersJoined (operator : Output) : List (List Action) → List Action
  | [] => []
  | [ts] => ts
  | ts :: us :: rest =>
    ts ++ [text " ", .emit operator, text " "] ++ membersJoined operator (us :: rest)

/-- A set operation, inside its own frame. -/
def queryGroup (d : Dialect) : QueryGroup → List Action
  | ⟨operator, members, keys, offset, fetch, kind⟩ =>
    let body := membersJoined (Render.setOperatorText d operator) (members.map (member d))
    .emit (Render.checkSetOperator d operator) ::
      if d.capabilities.rowLimit == .rowsTo && (offset.isSome || fetch.isSome) then
        [text "select ", .call (.rowsTo offset fetch kind), text "* from "] ++
          parenthesized body ++ [text " ", .emit (.ofPieces [.derivedAlias])] ++ orderBy keys
      else
        body ++ orderBy keys ++
          [.call (.rowLimit (.group ⟨operator, members, keys, offset, fetch, kind⟩) true)]

/-- A query behind a new frame. A set operation with too few members gets none. -/
def query (s : Session) (root : Bool) (q : Query) : List Action :=
  match q with
  | .spec spec => [.within q root (querySpec (s.push q root) spec)]
  | .group g =>
    [.emit (.require (2 ≤ g.members.length)
        (.invalid (.tooFewMembers g.operator g.members.length))),
      .within q root (queryGroup s.dialect g)]

/-- The restriction of a query in front of a further condition. -/
def moved : Option Predicate → List Action
  | some p => if p.isEmpty then [] else parenthesized [predicate p] ++ [text " and "]
  | none => []

/-- A tuple against a query, whose tables are rendered inside its frame. -/
def subqueryTuple (d : Dialect) (ls : List Expr) (q : Query) (op : ComparisonOperator)
    (quantifier : Quantifier) (negated : Bool) : List Action :=
  match q with
  | .group _ => [fail (.unsupported .tupleAgainstSetOperation)]
  | .spec spec =>
    if !spec.isMovable then [fail (.unsupported .tupleAgainstLimitedSubquery)]
    else
      let all := quantifier == .all
      .emit (checkArity ls.length spec.selections.length) :: when negated [text "not "] ++
        when all [text "not "] ++
        [text "exists (select 1",
          .within q false (tables d spec.roots ++ text " where " :: moved spec.restriction ++
            when all [text "not "] ++ [.call (.selectTuple none spec.selections ls op.invert)]),
          text ")"]

def selections (s : Session) (clause : SelectClause) (viaDialect : Bool) : List Action :=
  if viaDialect then
    (match s.dialect.strategies.selectList, s.currentSpec with
      | .rowsTo, some spec => [.call (.rowsTo spec.offset spec.fetch spec.fetchKind)]
      | _, _ => []) ++ [.call (.selections clause false)]
  else
    when clause.distinct [text "distinct "] ++
      if clause.selections.isEmpty then [text "*"]
      else separated ", "
        (clause.selections.map fun x => [expression x.expr, .emit (.label x.label)])

/-- What a call does. A call that only appends text or checks its arguments is a single emission. -/
def ofCall (s : Session) : RenderCall → List Action :=
  let d := s.dialect
  fun
  | .expression e => ofExpr d e
  | .predicate p => ofPredicate d p
  | .expressions es => separated ", " (es.map fun e => [expression e])
  | .summarization kind groupings =>
    if d.capabilities.summarization = .unsupported then [fail (.unsupported (.summarization kind))]
    else text kind.sql :: parenthesized [.call (.expressions groupings)]
  | .sortKeys keys => separated ", " (keys.map (sortKey d))
  | .rowsTo offset fetch kind => rowsTo offset fetch kind
  | .query q => query s s.inRoot q
  | .nestedQuery q => query s false q
  | .selections clause viaDialect => selections s clause viaDialect
  | .rowLimit q viaDialect =>
    if viaDialect && d.strategies.rowLimit == .skip then []
    else trailing d q.offset q.fetch q.fetchKind
  | .upperBound rule fetch offset extra =>
      upperBound (rule.getD d.strategies.upperBound) fetch offset extra
  | .comparison rule lhs op rhs =>
    match rule with
    | some .standard => standard d lhs op rhs
    | some .intersect => comparison d .intersect lhs op rhs
    | _ => comparison d d.strategies.comparison lhs op rhs
  | .tuples lhs rhs op bounded => tuples lhs rhs op bounded
  | .subqueryTuple lhs q op quantifier negated => subqueryTuple d lhs q op quantifier negated
  | .selectTuple rule selections tuple op =>
    let columns := selections.map (·.expr)
    match rule with
    | some .standard => selectTuple d .standard columns tuple op
    | some .emulate => selectTuple d .emulate columns tuple op
    | _ => selectTuple d d.strategies.selectTuple columns tuple op
  | .tableGroup g => tableReference g.label g.reference
  | .tableGroupOn g p => tableReference g.label g.reference ++ [text " on ", predicate p]
  | .joinedGroup j (some p) => [.call (.tableGroupOn j.joined p)]
  | .joinedGroup j none => [.call (.tableGroup j.joined)]
  | .join j => join d j
  | .partitionItem rule e => partitionItem (rule.getD d.strategies.partition) e
  | c => [.emit (s.output c)]

end Action

end DialectSql
