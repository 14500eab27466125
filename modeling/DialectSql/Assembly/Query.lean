import DialectSql.Assembly.Stack
import DialectSql.Ast.Document

namespace DialectSql.Assembly

def onSpec (f : QuerySpec → QuerySpec) : Build Unit := do push (.spec (f (← popSpec)))

def restrictTop (p : Predicate) : Build Unit := do
  match ← get with
  | .spec s :: rest => set (Item.spec (s.restrict p) :: rest)
  | .update s :: rest => set (Item.update (s.restrict p) :: rest)
  | .delete s :: rest => set (Item.delete (s.restrict p) :: rest)
  | _ => throw .stack

def onQuery (spec : QuerySpec → QuerySpec) (group : QueryGroup → QueryGroup) : Build Unit := do
  match ← get with
  | .spec s :: rest => set (Item.spec (spec s) :: rest)
  | .group g :: rest => set (Item.group (group g) :: rest)
  | _ => throw .stack

def queryStep? (args : List Json) : String → Option (Build Unit)
  | "asc" => some do push (.sort (.asc (← popExpr)))
  | "desc" => some do push (.sort (.desc (← popExpr)))
  | "nulls" => some do
    let k ← popSort
    push (.sort (k.withNulls (← arg args 0 (Json.constant? NullOrdering.all NullOrdering.name))))
  | "query_spec" => some do push (.spec .empty)
  | "select" => some do
    let e ← popExpr
    onSpec (·.select e none)
  | "select_as" => some do
    let e ← popExpr
    let s ← popSpec
    push (.spec (s.select e (some (← arg args 0 name))))
  | "group_by" => some do
    let e ← popExpr
    onSpec (·.addGrouping e)
  | "from" => some do
    let g ← popTable
    onSpec (·.addRoot g)
  | "having" => some do
    let p ← popPredicate
    onSpec (·.withHaving p)
  | "distinct" => some do onSpec (·.asDistinct)
  | "restrict" => some do restrictTop (← popPredicate)
  | "order_by" => some do
    let k ← popSort
    onQuery (·.addSort k) (·.addSort k)
  | "offset" => some do
    let e ← popExpr
    onQuery (·.withOffset e) (·.withOffset e)
  | "fetch" => some do
    let e ← popExpr
    onQuery (·.withFetch e) (·.withFetch e)
  | "group" => some do
    let members ← popMany Item.query? (← arg args 1 count)
    push (.group (.ofMembers
      (← arg args 0 (Json.constant? SetOperator.all SetOperator.name)) members))
  | "table" => some do push (.table (.table (← arg args 0 name)))
  | "derived" => some do push (.table (.derived (← popQuery)))
  | "alias" => some do
    let g ← popTable
    push (.table (g.withAlias (← arg args 0 name)))
  | "inner" => some do
    let p ← popPredicate
    push (.join (.inner (← popTable) p))
  | "left" => some do
    let p ← popPredicate
    push (.join (.left (← popTable) p))
  | "cross" => some do push (.join (.cross (← popTable)))
  | "join_on" => some do
    let p ← popPredicate
    let g ← popTable
    push (.join ⟨← arg args 0 (Json.constant? JoinType.all JoinType.name), g, some p, false⟩)
  | "join_plain" => some do
    let g ← popTable
    push (.join ⟨← arg args 0 (Json.constant? JoinType.all JoinType.name), g, none, false⟩)
  | "lateral" => some do push (.join (← popJoin).asLateral)
  | "join" => some do
    let j ← popJoin
    push (.table ((← popTable).addJoin j))
  | _ => none

end DialectSql.Assembly
