import DialectSql.Dialect.Basic
import DialectSql.Json.Record

namespace DialectSql

open Json (constant?)

namespace LockingCapabilities

def toJson (c : LockingCapabilities) : Json :=
  .object
    [("for_update", .bool c.forUpdate), ("for_share", .bool c.forShare),
      ("of_aliases", .bool c.ofAliases),
      ("no_wait", .bool c.noWait), ("skip_locked", .bool c.skipLocked),
      ("wait_seconds", .bool c.waitSeconds), ("with_set_operators", .bool c.withSetOperators),
      ("with_aggregates", .bool c.withAggregates)]

def ofJson? (_ : Json.Latitude) : Nat → Json → Option LockingCapabilities
  | 0, _ => none
  | _ + 1, j => do
    let r ← j.record? ["for_update", "for_share", "of_aliases", "no_wait", "skip_locked",
      "wait_seconds", "with_set_operators", "with_aggregates"]
    some
      { forUpdate := ← r.field "for_update" Json.bool?
        forShare := ← r.field "for_share" Json.bool?
        ofAliases := ← r.field "of_aliases" Json.bool?
        noWait := ← r.field "no_wait" Json.bool?
        skipLocked := ← r.field "skip_locked" Json.bool?
        waitSeconds := ← r.field "wait_seconds" Json.bool?
        withSetOperators := ← r.field "with_set_operators" Json.bool?
        withAggregates := ← r.field "with_aggregates" Json.bool? }

end LockingCapabilities

namespace Capabilities

def fields : List String :=
  ["row_value_constructor", "row_value_in_list", "row_value_in_quantified", "row_limit",
    "offset_requires_limit", "fetch_with_ties", "placeholder", "boolean_literals", "distinct_from",
    "summarization", "null_precedence", "lateral", "cte", "recursive_cte", "recursive_keyword",
    "cte_materialization", "search_clause", "cycle_clause", "dual_table", "select_requires_from",
    "minus_for_except", "simple_query_grouping", "intersect_except_all", "insert_default_values",
    "locking"]

def toJson (c : Capabilities) : Json :=
  .object
    [("row_value_constructor", .bool c.rowValueConstructor),
      ("row_value_in_list", .bool c.rowValueInList),
      ("row_value_in_quantified", .bool c.rowValueInQuantified),
      ("row_limit", .string c.rowLimit.name),
      ("offset_requires_limit", .bool c.offsetRequiresLimit),
      ("fetch_with_ties", .bool c.fetchWithTies),
      ("placeholder", .string c.placeholder.name),
      ("boolean_literals", .string c.booleanLiterals.name),
      ("distinct_from", .string c.distinctFrom.name),
      ("summarization", .string c.summarization.name),
      ("null_precedence", .bool c.nullPrecedence),
      ("lateral", .bool c.lateral),
      ("cte", .bool c.cte),
      ("recursive_cte", .bool c.recursiveCte),
      ("recursive_keyword", .bool c.recursiveKeyword),
      ("cte_materialization", .bool c.cteMaterialization),
      ("search_clause", .string c.searchClause.name),
      ("cycle_clause", .string c.cycleClause.name),
      ("dual_table", .ofOption .string c.dualTable),
      ("select_requires_from", .bool c.selectRequiresFrom),
      ("minus_for_except", .bool c.minusForExcept),
      ("simple_query_grouping", .bool c.simpleQueryGrouping),
      ("intersect_except_all", .bool c.intersectExceptAll),
      ("insert_default_values", .bool c.insertDefaultValues),
      ("locking", c.locking.toJson)]

def ofJson? (l : Json.Latitude) : Nat → Json → Option Capabilities
  | 0, _ => none
  | n + 1, j => do
    let r ← j.record? fields
    some
      { rowValueConstructor := ← r.field "row_value_constructor" Json.bool?
        rowValueInList := ← r.field "row_value_in_list" Json.bool?
        rowValueInQuantified := ← r.field "row_value_in_quantified" Json.bool?
        rowLimit := ← r.field "row_limit" (constant? RowLimitStyle.all RowLimitStyle.name l n)
        offsetRequiresLimit := ← r.field "offset_requires_limit" Json.bool?
        fetchWithTies := ← r.field "fetch_with_ties" Json.bool?
        placeholder :=
          ← r.field "placeholder" (constant? PlaceholderStyle.all PlaceholderStyle.name l n)
        booleanLiterals :=
          ← r.field "boolean_literals"
            (constant? BooleanLiteralStyle.all BooleanLiteralStyle.name l n)
        distinctFrom :=
          ← r.field "distinct_from" (constant? DistinctFromSupport.all DistinctFromSupport.name l n)
        summarization :=
          ← r.field "summarization" (constant? ClauseSupport.all ClauseSupport.name l n)
        nullPrecedence := ← r.field "null_precedence" Json.bool?
        lateral := ← r.field "lateral" Json.bool?
        cte := ← r.field "cte" Json.bool?
        recursiveCte := ← r.field "recursive_cte" Json.bool?
        recursiveKeyword := ← r.field "recursive_keyword" Json.bool?
        cteMaterialization := ← r.field "cte_materialization" Json.bool?
        searchClause :=
          ← r.field "search_clause" (constant? ClauseSupport.all ClauseSupport.name l n)
        cycleClause := ← r.field "cycle_clause" (constant? ClauseSupport.all ClauseSupport.name l n)
        dualTable := ← r.optional "dual_table" Json.string?
        selectRequiresFrom := ← r.field "select_requires_from" Json.bool?
        minusForExcept := ← r.field "minus_for_except" Json.bool?
        simpleQueryGrouping := ← r.field "simple_query_grouping" Json.bool?
        intersectExceptAll := ← r.field "intersect_except_all" Json.bool?
        insertDefaultValues := ← r.field "insert_default_values" Json.bool?
        locking := ← r.field "locking" (LockingCapabilities.ofJson? l n) }

end Capabilities

end DialectSql
