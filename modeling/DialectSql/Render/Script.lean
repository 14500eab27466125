import DialectSql.Json.Member
import DialectSql.Render.Document
import DialectSql.Render.Session

namespace DialectSql

open Json (leaf)

def SelectClause.ofJson? (l : Json.Latitude) (n : Nat) (j : Json) : Option SelectClause :=
  (selectClauseOfJson? l n j).map fun (distinct, selections) => ⟨distinct, selections⟩

def ComparisonOperator.ofJson? : Json.Reading ComparisonOperator := Json.constant? all name

def pushName : String := "push"

def stepArguments : List (String × List String) :=
  [(pushName, ["part", "root", "steps"]),
    ("append_sql", ["text"]),
    ("add_parameter", ["slot"]),
    ("gap", ["gap"]),
    ("expression", ["expr"]),
    ("predicate", ["predicate"]),
    ("comma_separated", ["exprs"]),
    ("summarization", ["kind", "groupings"]),
    ("sorts", ["sorts"]),
    ("rows_to", ["offset", "fetch", "kind"]),
    ("integer_sum", ["terms", "extra"]),
    ("query_part", ["part"]),
    ("nested_query_part", ["part"]),
    ("selections", ["clause", "via_dialect"]),
    ("offset_fetch", ["part", "via_dialect"]),
    ("fetch_plus_offset", ["fetch", "offset", "extra", "strategy"]),
    ("comparison", ["lhs", "operator", "rhs", "strategy"]),
    ("tuple_comparison", ["lhs", "rhs", "operator", "optimized"]),
    ("subquery_tuple", ["lhs", "query", "operator", "quantifier", "negated"]),
    ("select_tuple", ["selections", "tuple", "operator", "strategy"]),
    ("table_group", ["group"]),
    ("table_group_on", ["group", "predicate"]),
    ("joined_group", ["join", "predicate"]),
    ("join", ["join"]),
    ("partition_item", ["expr", "strategy"]),
    ("locking_strategy", ["spec", "follow_on", "strategy"]),
    ("search_clause", ["cte", "strategy"]),
    ("cycle_clause", ["cte", "strategy"]),
    ("check_arity", ["lhs", "rhs"]),
    ("check_cross_join", ["join"])]

/-- The name of a step and its arguments: an object that names it, or a list that starts with it. -/
def stepParts? : Json → Option (String × Json.Record)
  | .object members =>
    match members.lookup "do" with
    | some (.string name) => some (name, members)
    | _ => none
  | .array (.string name :: args) => do
    some (name, ← (Json.array args).record? (← stepArguments.lookup name))
  | _ => none

/-- Steps are read with full latitude. -/
def argument? {α : Type} (r : Json.Record) (name : String) (read : Json.Reading α) : Option α :=
  r.field name (Json.readWith .full read)

def optionalArgument? {α : Type} (r : Json.Record) (name : String) (read : Json.Reading α) :
    Option (Option α) :=
  r.optional name (Json.readWith .full read)

/-- A rule by name; another name stands for the dialect's own. -/
def ruleArgument? {α : Type} (r : Json.Record) (rules : List (String × α)) : Option (Option α) := do
  some (rules.lookup (← argument? r "strategy" (leaf Json.string?)))

def RenderCall.ofRecord? (name : String) (r : Json.Record) : Option RenderCall := do
  let expr (f : String) := argument? r f Expr.ofJson?
  let exprs (f : String) := argument? r f exprsOfJson?
  let query (f : String) := argument? r f Query.ofJson?
  let bool (f : String) := argument? r f (leaf Json.bool?)
  let count (f : String) := (argument? r f (leaf Json.uint64?)).map UInt64.toNat
  let operator := argument? r "operator" ComparisonOperator.ofJson?
  match name with
  | "append_sql" => some (.text (← argument? r "text" (leaf Json.string?)))
  | "add_parameter" => some (.parameter (← argument? r "slot" BindSlot.ofJson?))
  | "gap" => some (.gap (← argument? r "gap" CapabilityGap.ofJson?))
  | "expression" => some (.expression (← expr "expr"))
  | "predicate" => some (.predicate (← argument? r "predicate" Predicate.ofJson?))
  | "comma_separated" => some (.expressions (← exprs "exprs"))
  | "summarization" =>
    let kind ← argument? r "kind" (Json.constant? SummarizationKind.all SummarizationKind.name)
    some (.summarization kind (← exprs "groupings"))
  | "sorts" => some (.sortKeys (← argument? r "sorts" sortKeysOfJson?))
  | "rows_to" =>
    some (.rowsTo (← optionalArgument? r "offset" Expr.ofJson?)
      (← optionalArgument? r "fetch" Expr.ofJson?)
      (← argument? r "kind" (Json.constant? FetchKind.all FetchKind.name)))
  | "integer_sum" =>
    some (.integerSum (← exprs "terms") (← argument? r "extra" (leaf Json.int64?)))
  | "query_part" => some (.query (← query "part"))
  | "nested_query_part" => some (.nestedQuery (← query "part"))
  | "selections" =>
    some (.selections (← argument? r "clause" SelectClause.ofJson?) (← bool "via_dialect"))
  | "offset_fetch" => some (.rowLimit (← query "part") (← bool "via_dialect"))
  | "fetch_plus_offset" =>
    let rule ← ruleArgument? r [("standard", .standard), ("single_parameter", .singleParameter)]
    some (.upperBound rule (← expr "fetch") (← optionalArgument? r "offset" Expr.ofJson?)
      (← argument? r "extra" (leaf Json.int64?)))
  | "comparison" =>
    let rule ← ruleArgument? r [("standard", .standard), ("intersect", .intersect)]
    some (.comparison rule (← expr "lhs") (← operator) (← expr "rhs"))
  | "tuple_comparison" =>
    some (.tuples (← exprs "lhs") (← exprs "rhs") (← operator) (← bool "optimized"))
  | "subquery_tuple" =>
    let quantifier ← argument? r "quantifier" (Json.constant? Quantifier.values Quantifier.name)
    some (.subqueryTuple (← exprs "lhs") (← query "query") (← operator) quantifier
      (← bool "negated"))
  | "select_tuple" =>
    let rule ← ruleArgument? r [("standard", .standard), ("emulate", .emulate)]
    some (.selectTuple rule (← argument? r "selections" selectionsOfJson?) (← exprs "tuple")
      (← operator))
  | "table_group" => some (.tableGroup (← argument? r "group" TableGroup.ofJson?))
  | "table_group_on" =>
    some (.tableGroupOn (← argument? r "group" TableGroup.ofJson?)
      (← argument? r "predicate" Predicate.ofJson?))
  | "joined_group" =>
    some (.joinedGroup (← argument? r "join" TableJoin.ofJson?)
      (← optionalArgument? r "predicate" Predicate.ofJson?))
  | "join" => some (.join (← argument? r "join" TableJoin.ofJson?))
  | "partition_item" =>
    let rule ← ruleArgument? r [("standard", .standard), ("expression", .expression)]
    some (.partitionItem rule (← expr "expr"))
  | "locking_strategy" =>
    let rule ← ruleArgument? r [("standard", .standard), ("timesten", .unlessSetOperation)]
    some (.lockStrategy rule (← argument? r "spec" QuerySpec.ofJson?)
      (← optionalArgument? r "follow_on" (leaf Json.bool?)))
  | "search_clause" =>
    let rule ← ruleArgument? r [("standard", .standard), ("skip", .skip)]
    some (.searchClause rule (← argument? r "cte" Cte.ofJson?))
  | "cycle_clause" =>
    let rule ← ruleArgument? r [("standard", .standard), ("gap", .gap)]
    some (.cycleClause rule (← argument? r "cte" Cte.ofJson?))
  | "check_arity" => some (.arity (← count "lhs") (← count "rhs"))
  | "check_cross_join" => some (.crossJoin (← argument? r "join" TableJoin.ofJson?))
  | _ => none

/-- A step of a live rendering: a call, or steps inside a query. -/
inductive ScriptStep
  | call (c : RenderCall)
  | within (q : Query) (root : Bool) (steps : List ScriptStep)

def ScriptStep.ofJson? (l : Json.Latitude) : Nat → Json → Option ScriptStep
  | 0, _ => none
  | n + 1, j => do
    let (name, r) ← stepParts? j
    if name = pushName then
      let steps ← r.field "steps" fun
        | .array steps => steps.mapM (ScriptStep.ofJson? l n)
        | _ => none
      some (.within (← argument? r "part" Query.ofJson?) (← argument? r "root" (leaf Json.bool?))
        steps)
    else (RenderCall.ofRecord? name r).map .call

end DialectSql
