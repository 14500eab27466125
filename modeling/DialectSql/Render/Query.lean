import DialectSql.Ast.Builder
import DialectSql.Render.Comparison
import DialectSql.Render.Locking
import DialectSql.Render.RowLimit

namespace DialectSql

namespace Render

def literal (d : Dialect) (v : SqlValue) : Output :=
  match v, d.capabilities.booleanLiterals with
  | .bool b, .integer => .ofPieces [.plain (if b then "1" else "0")]
  | v, _ => .ofPieces v.pieces

def qualified (qualifier : Option String) (last : Output) : Output :=
  match qualifier with
  | some q => .name q ++ .word "." ++ last
  | none => last

def summarization (d : Dialect) (kind : SummarizationKind) (groupings : List Output) : Output :=
  if d.capabilities.summarization = .unsupported then .fail (.unsupported (.summarization kind))
  else .word kind.sql ++ (Output.list groupings).parenthesized

def needsParens (op : BinaryOp) (isRight : Bool) : Expr → Bool
  | .binary _ inner _ =>
    inner.precedence < op.precedence ||
      (isRight && inner.precedence == op.precedence && op.isLeftAssociativeOnly)
  | _ => false

def wrap (condition : Bool) (o : Output) : Output := if condition then o.parenthesized else o

def binary (left : Expr) (op : BinaryOp) (right : Expr) (l r : Output) : Output :=
  wrap (needsParens op false left) l ++ .word " " ++ .word op.sql ++ .word " " ++
    wrap (needsParens op true right) r

def negation (operand : Expr) (o : Output) : Output :=
  .word "-" ++ wrap (match operand with | .binary .. | .negate _ => true | _ => false) o

def call (name : String) (args : List Output) (distinct : Bool) : Output :=
  .name name ++ .word "(" ++ .when distinct (.word "distinct ") ++ .list args ++ .word ")"

def caseOf (branches : List Output) (otherwise : Option Output) : Output :=
  if branches.isEmpty then .fail (.invalid .emptyCase)
  else .word "case" ++ .concat branches ++ .clause " else " otherwise ++ .word " end"

/-- The clauses of a window, one blank between each two. -/
def windowed (function : Output) (partitionBy orderBy : List Output) (frame : Option WindowFrame) :
    Output :=
  let partition := if partitionBy.isEmpty then [] else [.word "partition by " ++ .list partitionBy]
  let order := if orderBy.isEmpty then [] else [.word "order by " ++ .list orderBy]
  let frames := frame.toList.map fun f => .word f.sql
  function ++ .word " over " ++ (Output.joined " " (partition ++ order ++ frames)).parenthesized

/-- One item of a grouping or a partition. A literal would be read as a position, so it is
replaced. -/
def partitionItem (rule : PartitionRule) (item : Expr) (o : Output) : Output :=
  match rule, item with
  | .standard, .literal _ => .word "()"
  | .standard, _ => o
  | .expression, .literal _ => .ofPieces [.quoted "0", .word " || ", .quoted "0"]
  | .expression, .summarization .. => .fail (.unsupported .summarizedPartition)
  | .expression, _ => o

/-- A sort key. Without null precedence in the dialect, a key that tells nulls apart goes first. -/
def sortKey (d : Dialect) (direction : OrderDirection) (nulls : Option NullOrdering) (o : Output) :
    Output :=
  let descending := Output.when (direction == .desc) (.word " desc")
  match nulls with
  | none => o ++ descending
  | some nulls =>
    if d.capabilities.nullPrecedence then o ++ descending ++ .word " " ++ .word nulls.sql
    else
      let (whenNull, otherwise) := match nulls with
        | .first => ("0", "1")
        | .last => ("1", "0")
      .word "case when " ++ o ++ .word " is null then " ++ .word whenNull ++ .word " else " ++
        .word otherwise ++ .word " end, " ++ o ++ descending

def orderBy (keys : List Output) : Output :=
  if keys.isEmpty then .empty else .word " order by " ++ .list keys

/-- Null tests of a tuple of several elements are tests of all elements. -/
def nullCheck (e : Operand) (negated : Bool) : Output :=
  match e with
  | .tuple es =>
    if 1 < es.length then
      (Output.joined " and " (es.map (Comparison.nullTest · negated))).parenthesized
    else Comparison.nullTest e negated
  | e => Comparison.nullTest e negated

def membership (negated : Bool) : String := if negated then " not in (" else " in ("

def checkArities (n : Nat) (items : List Operand) : Output :=
  .concat (items.map fun i => checkArity n i.elements.length)

/-- An empty list has no members; a list of row values may have to be written out. -/
def inList (d : Dialect) (e : Operand) (items : List Operand) (negated : Bool) : Output :=
  if items.isEmpty then .word (if negated then "1=1" else "1=0")
  else
    let native := e.output ++ .word (membership negated) ++ .list (operandOutputs items) ++
      .word ")"
    match e with
    | .tuple es =>
      checkArities es.length items ++
        if d.capabilities.rowValueInList then native
        else
          .when negated (.word "not ") ++
            (Output.joined " or "
              (items.map fun i => Comparison.tuples d es i.elements .equal false)).parenthesized
    | _ => native

def inSubquery (d : Dialect) (e : Operand) (query : Subquery) (negated : Bool) : Output :=
  let native := e.output ++ .word (membership negated) ++ query.output ++ .word ")"
  match e with
  | .tuple es =>
    if d.capabilities.rowValueInQuantified then native
    else Comparison.subquery d es query .equal .any negated
  | _ => native

def between (d : Dialect) (e low high : Operand) (negated : Bool) : Output :=
  if (e.isTuple || low.isTuple || high.isTuple) && !d.capabilities.rowValueConstructor then
    checkArity e.elements.length low.elements.length ++
      checkArity e.elements.length high.elements.length ++
      .when negated (.word "not ") ++
      (Comparison.tuples d e.elements low.elements .greaterThanOrEqual true ++ .word " and " ++
        Comparison.tuples d e.elements high.elements .lessThanOrEqual true).parenthesized
  else
    e.output ++ .word (if negated then " not between " else " between ") ++ low.output ++
      .word " and " ++ high.output

def like (e pattern : Output) (escape : Option Char) (negated : Bool) : Output :=
  e ++ .word (if negated then " not like " else " like ") ++ pattern ++
    match escape with
    | some c => .word " escape " ++ .ofPieces [.quoted c.toString]
    | none => .empty

mutual
/-- A junction of several members, looking through junctions of a single one. -/
def isCompound : Predicate → Bool
  | .junction _ members => isCompoundList members
  | _ => false
def isCompoundList : List Predicate → Bool
  | [] => false
  | [p] => isCompound p
  | _ :: _ :: _ => true
end

def junction (nature : JunctionNature) (members : List (Bool × Output)) : Output :=
  match members with
  | [] => .word nature.emptySql
  | [(_, o)] => o
  | members => .joined nature.separator (members.map fun (compound, o) => wrap compound o)

def selectList (distinct : Bool) (selections : List Output) : Output :=
  .when distinct (.word "distinct ") ++ if selections.isEmpty then .word "*" else .list selections

/-- The select list behind the row range that the dialect may want there. -/
def selectListOf (d : Dialect) (offset fetch : Option Limit) (kind : FetchKind) (list : Output) :
    Output :=
  match d.strategies.selectList with
  | .standard => list
  | .rowsTo => RowLimit.rowsTo d offset fetch kind ++ list

def namedTable (t : NamedTable) : Output :=
  qualified t.schema (.ofPieces [.table t.name])

/-- A condition whose predicate is a junction without members is left out. -/
def condition (keyword : String) (p : Option Predicate) (o : Option Output) : Output :=
  match p with
  | some p => if p.isEmpty then .empty else .clause keyword o
  | none => .empty

def checkCrossJoin (p : Option Predicate) : Output :=
  .require (match p with | some p => p.isEmpty | none => true) (.invalid .crossJoinPredicate)

/-- The text of one join in front of its table. -/
def joinHead (d : Dialect) (type : JoinType) (p : Option Predicate) (lateral : Bool) : Output :=
  match d.strategies.join with
  | .standard =>
    .word " " ++ .word type.sql ++ .word " join " ++
      .when lateral (.require d.capabilities.lateral (.unsupported .lateral) ++ .word "lateral ") ++
      .when (type == .cross) (checkCrossJoin p)
  | .commaForCross =>
    (if type = .cross then checkCrossJoin p ++ .word ", "
      else .word " " ++ .word type.sql ++ .word " join ") ++
      .when lateral (.word "lateral ")

/-- The condition of a join behind its table. Where one is needed and none is given it is true. -/
def joinCondition (d : Dialect) (type : JoinType) (p : Option Predicate) (lateral : Bool)
    (o : Option Output) : Output :=
  let given := match p with
    | some p => !p.isEmpty
    | none => false
  if type = .cross then .empty
  else if given then .clause " on " o
  else if d.strategies.join = .standard ∨ lateral then
    .word " on " ++ .word JunctionNature.conjunction.emptySql
  else .empty

/-- Merges two lists of levels, the first before the second on each level. -/
def mergeLevels {α : Type} : List (List α) → List (List α) → List (List α)
  | [], bs => bs
  | as, [] => as
  | a :: as, b :: bs => (a ++ b) :: mergeLevels as bs

def setOperatorText (d : Dialect) (op : SetOperator) : Output :=
  match op with
  | .except => .word (if d.capabilities.minusForExcept then "minus" else op.sql)
  | .exceptAll => .word (if d.capabilities.minusForExcept then "minus all" else op.sql)
  | op => .word op.sql

def checkSetOperator (d : Dialect) (op : SetOperator) : Output :=
  .require (d.capabilities.intersectExceptAll || !(op == .intersectAll || op == .exceptAll))
    (.unsupported (.setOperator op))

/-- A member with an order or a limit of its own, or a set operation, is set apart: in parentheses,
or as a derived table where the dialect allows no parentheses. -/
def member (d : Dialect) (q : Query) (o : Output) : Output :=
  let apart := match q with
    | .group _ => true
    | .spec s => !s.orderBy.isEmpty || q.hasRowLimit
  if apart then
    if d.capabilities.simpleQueryGrouping then o.parenthesized
    else .word "select * from " ++ o.parenthesized ++ .word " " ++ .ofPieces [.derivedAlias]
  else o

def membersJoined (operator : Output) : List Output → Output
  | [] => .empty
  | [o] => o
  | o :: os => o ++ .word " " ++ operator ++ .word " " ++ membersJoined operator os

/-- A set operation. Where a row range stands in front of a select list, a limited operation becomes
a derived table below one. -/
def setOperation (d : Dialect) (operator : SetOperator) (members sorts : List Output)
    (offset fetch : Option Limit) (kind : FetchKind) : Output :=
  let derived := d.capabilities.rowLimit == .rowsTo && (offset.isSome || fetch.isSome)
  let body := membersJoined (setOperatorText d operator) members
  .require (2 ≤ members.length) (.invalid (.tooFewMembers operator members.length)) ++
    checkSetOperator d operator ++
    if derived then
      .word "select " ++ RowLimit.rowsTo d offset fetch kind ++ .word "* from " ++
        body.parenthesized ++ .word " " ++ .ofPieces [.derivedAlias] ++ orderBy sorts
    else body ++ orderBy sorts ++ RowLimit.clause d offset fetch kind

/-- The table that stands in for a missing one, where the dialect asks for a table. -/
def missingFrom (d : Dialect) : Output :=
  if d.capabilities.selectRequiresFrom then
    match d.capabilities.dualTable with
    | some dual => .word " from " ++ .name dual
    | none => .empty
  else .empty

def fromClause (d : Dialect) (roots : List Output) : Output :=
  if roots.isEmpty then missingFrom d else .word " from " ++ .list roots

mutual

def operand (d : Dialect) : Expr → Operand
  | .column qualifier name => .scalar (qualified qualifier (.name name))
  | .literal v => .scalar (literal d v)
  | .parameter slot => .scalar (.ofPieces [.slot slot])
  | .tuple es => .tuple (operands d es)
  | .summarization kind groupings =>
    .scalar (summarization d kind (operandOutputs (operands d groupings)))
  | .binary left op right =>
    .scalar (binary left op right (operand d left).output (operand d right).output)
  | .negate e => .scalar (negation e (operand d e).output)
  | .function name args distinct => .scalar (call name (operandOutputs (operands d args)) distinct)
  | .case branches none => .scalar (caseOf (whenClauses d branches) none)
  | .case branches (some e) => .scalar (caseOf (whenClauses d branches) (some (operand d e).output))
  | .cast e type =>
    .scalar (.word "cast(" ++ (operand d e).output ++ .word " as " ++ .name type.sql ++ .word ")")
  | .subquery q => .subquery (query d none q)
  | .quantified quantifier q => .quantified quantifier (query d none q)
  | .windowed function partitionBy keys frame =>
    .scalar (windowed (operand d function).output (partition d partitionBy) (sortKeys d keys) frame)
  | .star qualifier => .scalar (qualified qualifier (.word "*"))

def operands (d : Dialect) : List Expr → List Operand
  | [] => []
  | e :: es => operand d e :: operands d es

def partition (d : Dialect) : List Expr → List Output
  | [] => []
  | e :: es => partitionItem d.strategies.partition e (operand d e).output :: partition d es

def whenClauses (d : Dialect) : List WhenClause → List Output
  | [] => []
  | ⟨condition, result⟩ :: bs =>
    (.word " when " ++ predicate d condition ++ .word " then " ++ (operand d result).output) ::
      whenClauses d bs

def sortKeys (d : Dialect) : List SortKey → List Output
  | [] => []
  | ⟨e, direction, nulls⟩ :: ks => sortKey d direction nulls (operand d e).output :: sortKeys d ks

def limit (d : Dialect) : Option Expr → Option Limit
  | none => none
  | some e => some (.ofExpr e (operand d e).output)

def predicate (d : Dialect) : Predicate → Output
  | .comparison lhs op rhs => Comparison.render d (operand d lhs) op (operand d rhs)
  | .junction nature members => junction nature (predicates d members)
  | .negated p => .word "not " ++ (predicate d p).parenthesized
  | .nullCheck e negated => nullCheck (operand d e) negated
  | .inList e list negated => inList d (operand d e) (operands d list) negated
  | .inSubquery e q negated => inSubquery d (operand d e) (query d none q) negated
  | .exists q negated =>
    .when negated (.word "not ") ++ .word "exists " ++ (query d none q).output.parenthesized
  | .between e low high negated => between d (operand d e) (operand d low) (operand d high) negated
  | .like e pattern escape negated =>
      like (operand d e).output (operand d pattern).output escape negated
  | .boolean e => (operand d e).output

/-- The members of a junction, each with whether it needs parentheses beside others. -/
def predicates (d : Dialect) : List Predicate → List (Bool × Output)
  | [] => []
  | p :: ps => (isCompound p, predicate d p) :: predicates d ps

def optionalPredicate (d : Dialect) : Option Predicate → Option Output
  | none => none
  | some p => some (predicate d p)

/-- The items of a select list: their operands, and their aliases behind them. -/
def selections (d : Dialect) : List Selection → List (Operand × Output)
  | [] => []
  | ⟨e, label⟩ :: ss => (operand d e, .label label) :: selections d ss

def tableReference (d : Dialect) (label : Option String) : TableReference → Output
  | .named t => namedTable t ++ .label label
  | .derived q columns =>
    .require label.isSome (.invalid .derivedTableWithoutAlias) ++
      (query d none q).output.parenthesized ++ .label label ++
      .when (!columns.isEmpty) (.word " " ++ (Output.nameList columns).parenthesized)

/-- A table with its joins, level by level. -/
def tableGroup (d : Dialect) : TableGroup → Output
  | ⟨reference, label, joins⟩ =>
    tableReference d label reference ++ .concat (joinLevels d joins).flatten

def tableGroups (d : Dialect) : List TableGroup → List Output
  | [] => []
  | g :: gs => tableGroup d g :: tableGroups d gs

/-- The levels of a list of joins: the joins themselves, those that hang off their tables, and so
on. -/
def joinLevels (d : Dialect) : List TableJoin → List (List Output)
  | [] => []
  | ⟨type, ⟨reference, label, joins⟩, p, lateral⟩ :: js =>
    let own := joinHead d type p lateral ++ tableReference d label reference ++
      joinCondition d type p lateral (optionalPredicate d p)
    mergeLevels ([own] :: joinLevels d joins) (joinLevels d js)

/-- A query; `lock` is given where a lock of the statement applies. -/
def query (d : Dialect) (lock : Option LockScope) : Query → Subquery
  | .spec s => querySpec d lock s
  | .group g => .setOperation (queryGroup d lock g)

def querySpec (d : Dialect) (lock : Option LockScope) : QuerySpec → Subquery
  | ⟨distinct, items, roots, restriction, groupBy, having, keys, offset, fetch, kind⟩ =>
    let items := selections d items
    let source := fromClause d (tableGroups d roots)
    let restricted := optionalPredicate d restriction
    let aggregating := distinct || !groupBy.isEmpty || having.isSome
    let offset := limit d offset
    let fetch := limit d fetch
    let output :=
      .word "select " ++
        selectListOf d offset fetch kind
          (selectList distinct (items.map fun (o, a) => o.output ++ a)) ++
        source ++
        condition " where " restriction restricted ++
        (if groupBy.isEmpty then .empty else .word " group by " ++ .list (partition d groupBy)) ++
        condition " having " having (optionalPredicate d having) ++
        orderBy (sortKeys d keys) ++
        RowLimit.clause d offset fetch kind ++
        (match lock with
          | some scope => Locking.render d scope aggregating
          | none => .empty)
    let nonempty := match restriction with
      | some p => if p.isEmpty then none else restricted
      | none => none
    .spec output (!aggregating && offset.isNone && fetch.isNone) source nonempty (items.map (·.1))

def queryGroup (d : Dialect) (lock : Option LockScope) : QueryGroup → Output
  | ⟨operator, members, keys, offset, fetch, kind⟩ =>
    let inner := lock.map fun scope => { scope with underSetOperation := true }
    setOperation d operator (groupMembers d inner members) (sortKeys d keys) (limit d offset)
      (limit d fetch) kind

def groupMembers (d : Dialect) (lock : Option LockScope) : List Query → List Output
  | [] => []
  | q :: qs => member d q (query d lock q).output :: groupMembers d lock qs

end

def expression (d : Dialect) (e : Expr) : Output := (operand d e).output

end Render

end DialectSql
