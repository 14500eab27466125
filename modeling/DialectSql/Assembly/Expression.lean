import DialectSql.Assembly.Stack
import DialectSql.Render.Script

namespace DialectSql.Assembly

def int32 : Json.Reading Int64 := Json.leaf fun j => do
  let n ← j.int64?
  if -2147483648 ≤ n.toInt ∧ n.toInt ≤ 2147483647 then some n else none

/-- A value given in one of the forms that convert to a bound value. -/
def convertedValue (type : String) (args : List Json) : Build SqlValue := do
  match type with
  | "bool" => return .bool (← arg args 1 (Json.leaf Json.bool?))
  | "i64" => return .int (← arg args 1 (Json.leaf Json.int64?))
  | "i32" => return .int (← arg args 1 int32)
  | "u32" => return .int (Int64.ofNat (← arg args 1 (Json.leaf Json.uint32?)).toNat)
  | "f64" => return .float (← arg args 1 (Json.leaf Json.float?))
  | "string" => return .text (← arg args 1 name)
  | "str" => return .text (← arg args 1 name)
  | "bytes" => return .blob (← arg args 1 (Json.listOf (Json.leaf Json.uint8?)))
  | "timestamp" =>
      return .timestamp (← arg args 1 (Json.leaf fun j => j.string? >>= Timestamp.parse?))
  | "sql" => arg args 1 SqlValue.ofJson?
  | "option_i64" => return ((← arg args 1 (nullable Json.int64?)).map SqlValue.int).getD .null
  | "option_string" => return ((← arg args 1 (nullable Json.string?)).map SqlValue.text).getD .null
  | "option_option_bool" =>
      return ((← arg args 1 (nullable Json.bool?)).map SqlValue.bool).getD .null
  | _ => throw .argument

def binaryExpr (f : Expr → Expr → Expr) : Build Unit := do
  let b ← popExpr
  let a ← popExpr
  push (.expr (f a b))

def comparison (op : ComparisonOperator) : Build Unit := do
  let b ← popExpr
  let a ← popExpr
  push (.predicate (a.compare op b))

def onExpr (f : Expr → Predicate) : Build Unit := do push (.predicate (f (← popExpr)))

def exprStep? (args : List Json) : String → Option (Build Unit)
  | "column" => some do push (.expr (.column none (← arg args 0 name)))
  | "qualified_column" =>
      some do push (.expr (.column (some (← arg args 0 name)) (← arg args 1 name)))
  | "integer" => some do push (.expr (.integer (← arg args 0 (Json.leaf Json.int64?))))
  | "float" => some do push (.expr (.float (← arg args 0 (Json.leaf Json.float?))))
  | "string" => some do push (.expr (.string (← arg args 0 name)))
  | "boolean" => some do push (.expr (.boolean (← arg args 0 (Json.leaf Json.bool?))))
  | "null" => some do push (.expr .null)
  | "value" => some do push (.expr (.value (← convertedValue (← arg args 0 name) args)))
  | "column_parameter" => some do
    push (.expr (.columnParameter (← arg args 0 name) (← arg args 1 name)
      (← arg args 2 (Json.constant? ParameterUsage.all ParameterUsage.name))))
  | "count_star" => some do push (.expr .countStar)
  | "expr" => some do push (.expr (← arg args 0 Expr.ofJson?))
  | "tuple" => some do push (.expr (.tuple (← popMany Item.expr? (← arg args 0 count))))
  | "rollup" => some do push (.expr (.rollup (← popMany Item.expr? (← arg args 0 count))))
  | "cube" => some do push (.expr (.cube (← popMany Item.expr? (← arg args 0 count))))
  | "function" => some do
    let function ← arg args 0 name
    let n ← arg args 1 count
    push (.expr (.call function (← popMany Item.expr? n)))
  | "cast" => some do
    let e ← popExpr
    push (.expr (.cast e (← arg args 0 DataType.ofJson?)))
  | "binary" => some do
    let b ← popExpr
    let a ← popExpr
    push (.expr (.binary a (← arg args 0 (Json.constant? BinaryOp.all BinaryOp.name)) b))
  | "plus" => some do binaryExpr .plus
  | "concat" => some do binaryExpr .concat
  | "subquery" => some do push (.expr (.subquery (← popQuery)))
  | "any" => some do push (.expr (.any (← popQuery)))
  | "all" => some do push (.expr (.all (← popQuery)))
  | _ => none

def predicateStep? (args : List Json) : String → Option (Build Unit)
  | "predicate" => some do push (.predicate (← arg args 0 Predicate.ofJson?))
  | "always_true" => some do push (.predicate .alwaysTrue)
  | "compare" => some do
    let b ← popExpr
    let a ← popExpr
    push (.predicate (a.compare (← arg args 0 ComparisonOperator.ofJson?) b))
  | "eq" => some do comparison .equal
  | "not_eq" => some do comparison .notEqual
  | "lt" => some do comparison .lessThan
  | "lt_eq" => some do comparison .lessThanOrEqual
  | "gt" => some do comparison .greaterThan
  | "gt_eq" => some do comparison .greaterThanOrEqual
  | "is_distinct_from" => some do comparison .distinct
  | "is_not_distinct_from" => some do comparison .notDistinct
  | "like" => some do
    let b ← popExpr
    push (.predicate ((← popExpr).like b))
  | "is_null" => some do onExpr Expr.isNull
  | "is_not_null" => some do onExpr Expr.isNotNull
  | "boolean_expression" => some do onExpr Predicate.boolean
  | "between" => some do
    let high ← popExpr
    let low ← popExpr
    push (.predicate ((← popExpr).between low high))
  | "in_list" => some do
    let list ← popMany Item.expr? (← arg args 0 count)
    push (.predicate ((← popExpr).inList list))
  | "not_in_list" => some do
    let list ← popMany Item.expr? (← arg args 0 count)
    push (.predicate ((← popExpr).notInList list))
  | "in_subquery" => some do
    let q ← popQuery
    push (.predicate ((← popExpr).inSubquery q))
  | "exists" => some do push (.predicate (.existsIn (← popQuery)))
  | "conjunction" =>
      some do push (.predicate (.conjunction (← popMany Item.predicate? (← arg args 0 count))))
  | "disjunction" =>
      some do push (.predicate (.disjunction (← popMany Item.predicate? (← arg args 0 count))))
  | "and" => some do
    let b ← popPredicate
    push (.predicate ((← popPredicate).and b))
  | "or" => some do
    let b ← popPredicate
    push (.predicate ((← popPredicate).or b))
  | "negated" => some do push (.predicate (.negated (← popPredicate)))
  | _ => none

end DialectSql.Assembly
