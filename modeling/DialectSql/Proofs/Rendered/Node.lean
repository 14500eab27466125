import DialectSql.Proofs.Existence.Emulation

namespace DialectSql

def Expr.isLiteral : Expr → Bool
  | .literal _ => true
  | _ => false

/-- What is rendered by itself. Only a query of the top level may carry a lock. -/
inductive Node
  | expr (e : Expr)
  | predicate (p : Predicate)
  | query (lock : Option LockScope) (q : Query)

namespace Node

def output (d : Dialect) : Node → Output
  | expr e => Render.expression d e
  | predicate p => Render.predicate d p
  | query lock q => (Render.query d lock q).output

def exprs (es : List Expr) : List Node := es.map expr

/-- The condition of a clause, which is left out where it is a junction without members. -/
def given : Option Predicate → List Node
  | some p => if p.isEmpty then [] else [predicate p]
  | none => []

/-- The items of a grouping or a partition, in which literals are replaced. -/
def items (es : List Expr) : List Node := exprs (es.filter (!·.isLiteral))

def sortKeys (keys : List SortKey) : List Node := exprs (keys.map (·.expr))

/-- Two rows that are compared by their elements. Distinctness is a comparison of each two
elements; any other operator is written between them, or one that is derived from it. -/
def rows (ls : List Expr) (op : ComparisonOperator) (rs : List Expr) : List Node :=
  (ls.zip rs).flatMap fun (l, r) =>
    if op.isDistinctness then [predicate (.comparison l op r)] else [expr l, expr r]

theorem rows_ordinary {op : ComparisonOperator} (h : op.isDistinctness = false)
    (ls rs : List Expr) : rows ls op rs = (ls.zip rs).flatMap fun p => [expr p.1, expr p.2] := by
  simp [rows, h]

theorem rows_distinct {op : ComparisonOperator} (h : op.isDistinctness = true) (ls rs : List Expr) :
    rows ls op rs = (ls.zip rs).map fun p => predicate (.comparison p.1 op p.2) := by
  simp [rows, h, List.map_eq_flatMap]

/-- The limits in a row range that stands in front of a select list. An offset by itself is
written as a number of its own. -/
def range (d : Dialect) (offset fetch : Option Expr) : List Node :=
  match fetch, offset with
  | some f, some o => if d.strategies.upperBound = .standard then [expr f, expr o] else []
  | some f, none => [expr f]
  | none, _ => []

/-- The limits in the clause at the end of a query. -/
def limits (d : Dialect) (offset fetch : Option Expr) : List Node :=
  if d.strategies.rowLimit = .standard ∧ d.capabilities.rowLimit ≠ .rowsTo then
    exprs (offset.toList ++ fetch.toList)
  else []

end Node

open Node

def TableReference.parts : TableReference → List Node
  | .named _ => []
  | .derived q _ => [.query none q]

/-- A cross join has no condition. -/
def TableJoin.parts : List TableJoin → List Node
  | [] => []
  | ⟨type, ⟨reference, _, joins⟩, p, _⟩ :: js =>
    reference.parts ++ (if type = .cross then [] else given p) ++ TableJoin.parts joins ++
      TableJoin.parts js

def TableGroup.parts (g : TableGroup) : List Node := g.reference.parts ++ TableJoin.parts g.joins

def QuerySpec.tables (s : QuerySpec) : List Node := s.roots.flatMap TableGroup.parts

def QuerySpec.parts (d : Dialect) (s : QuerySpec) : List Node :=
  exprs s.columns ++
    (if d.strategies.selectList = .rowsTo then range d s.offset s.fetch else []) ++ s.tables ++
    given s.restriction ++ items s.groupBy ++ given s.having ++ Node.sortKeys s.orderBy ++
    limits d s.offset s.fetch

def QueryGroup.parts (d : Dialect) (lock : Option LockScope) (g : QueryGroup) : List Node :=
  let inner := lock.map fun scope => { scope with underSetOperation := true }
  g.members.map (.query inner) ++ Node.sortKeys g.orderBy ++
    if d.capabilities.rowLimit == .rowsTo && (g.offset.isSome || g.fetch.isSome) then
      range d g.offset g.fetch
    else limits d g.offset g.fetch

def Query.parts (d : Dialect) (lock : Option LockScope) : Query → List Node
  | .spec s => s.parts d
  | .group g => g.parts d lock

def Expr.parts : Expr → List Node
  | .column .. | .literal _ | .parameter _ | .star _ => []
  | .tuple es | .summarization _ es | .function _ es _ => exprs es
  | .binary left _ right => [expr left, expr right]
  | .negate e | .cast e _ => [expr e]
  | .case branches otherwise =>
    (branches.flatMap fun b => [predicate b.condition, expr b.result]) ++ exprs otherwise.toList
  | .subquery q | .quantified _ q => [query none q]
  | .windowed f partitionBy keys _ =>
    expr f :: (items partitionBy ++ Node.sortKeys keys)

namespace Comparison

/-- The parts of a row and the rows of a query, inside the query. -/
def selectTupleParts (d : Dialect) (ss : List Expr) (op : ComparisonOperator) (ls : List Expr) :
    List Node :=
  if writesRows d then exprs (ss ++ ls) else rows ss op ls

/-- The parts of a query that a comparison with its rows is moved into. Its order is left out. -/
def subqueryParts (d : Dialect) (ls : List Expr) (op : ComparisonOperator) : Query → List Node
  | .group _ => []
  | .spec s => s.tables ++ given s.restriction ++ selectTupleParts d s.columns op.invert ls

def standardParts (d : Dialect) (lhs : Expr) (op : ComparisonOperator) (rhs : Expr) : List Node :=
  match rhs with
  | .quantified _ q =>
    if lhs.isTuple && !d.capabilities.rowValueInQuantified then subqueryParts d lhs.elements op q
    else [expr lhs, expr rhs]
  | .subquery q =>
    if lhs.isTuple && !d.capabilities.rowValueConstructor then subqueryParts d lhs.elements op q
    else [expr lhs, expr rhs]
  | .tuple rs =>
    if lhs.isTuple && !(d.capabilities.rowValueConstructor &&
        (!op.isDistinctness || d.capabilities.distinctFrom == .native)) then
      rows lhs.elements op rs
    else [expr lhs, expr rhs]
  | _ => [expr lhs, expr rhs]

def parts (d : Dialect) (lhs : Expr) (op : ComparisonOperator) (rhs : Expr) : List Node :=
  match d.strategies.comparison with
  | .standard => standardParts d lhs op rhs
  | .intersect =>
    if op.isDistinctness then exprs (lhs.elements ++ rhs.elements) else standardParts d lhs op rhs
  | .lexicographic =>
    if lhs.isTuple && rhs.isTuple then rows lhs.elements op rhs.elements
    else standardParts d lhs op rhs

end Comparison

def Predicate.parts (d : Dialect) : Predicate → List Node
  | .comparison lhs op rhs => Comparison.parts d lhs op rhs
  | .junction _ members => members.map .predicate
  | .negated p => [.predicate p]
  | .nullCheck e _ => if e.isTuple && 1 < e.elements.length then exprs e.elements else [.expr e]
  | .inList e list _ =>
    if list.isEmpty then []
    else if e.isTuple && !d.capabilities.rowValueInList then
      list.flatMap fun i => rows e.elements .equal i.elements
    else exprs (e :: list)
  | .inSubquery e q _ =>
    if e.isTuple && !d.capabilities.rowValueInQuantified then
      Comparison.subqueryParts d e.elements .equal q
    else [.expr e, .query none q]
  | .exists q _ => [.query none q]
  | .between e low high _ =>
    if (e.isTuple || low.isTuple || high.isTuple) && !d.capabilities.rowValueConstructor then
      rows e.elements .greaterThanOrEqual low.elements ++
        rows e.elements .lessThanOrEqual high.elements
    else exprs [e, low, high]
  | .like e pattern _ _ => exprs [e, pattern]
  | .boolean e => [.expr e]

namespace Node

/-- What a node is rendered from. -/
def parts (d : Dialect) : Node → List Node
  | expr e => e.parts
  | predicate p => p.parts d
  | query lock q => q.parts d lock

/-- The node is rendered in the other one. -/
inductive Renders (d : Dialect) (k : Node) : Node → Prop
  | here : Renders d k k
  | through {n m : Node} (hpart : m ∈ n.parts d) (h : Renders d k m) : Renders d k n

end Node

/-- The queries and expressions that a statement is rendered from, and its condition. -/
def SelectStatement.parts (lock : Option LockScope) (s : SelectStatement) : List Node :=
  s.ctes.map (fun c => .query none c.query) ++ [.query lock s.query]

def InsertSource.parts : InsertSource → List Node
  | .values rows => rows.flatMap exprs
  | .query s => s.parts none
  | .defaultValues => []

def Statement.parts (lock : LockOptions) : Statement → List Node
  | .select s => s.parts (some ⟨lock, false⟩)
  | .insert s => s.source.parts
  | .update s => exprs (s.assignments.map (·.value)) ++ given s.restriction
  | .delete s => given s.restriction

def Statement.Renders (d : Dialect) (lock : LockOptions) (s : Statement) (k : Node) : Prop :=
  ∃ n ∈ s.parts lock, Node.Renders d k n

end DialectSql
