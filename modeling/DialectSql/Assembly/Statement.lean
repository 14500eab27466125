import DialectSql.Assembly.Expression
import DialectSql.Assembly.Query
import DialectSql.Render.Document

namespace DialectSql.Assembly

def targetOf (args : List Json) : Build NamedTable := do
  let table ← arg args 0 name
  let schema ← arg args 1 (nullable Json.string?)
  return ⟨schema, table⟩

def statementStep? (args : List Json) : String → Option (Build Unit)
  | "cte" => some do
    let q ← popQuery
    push (.cte (.ofQuery (← arg args 0 name) q))
  | "columns" => some do
    let c ← popCte
    push (.cte { c with columns := ← arg args 0 (Json.listOf name) })
  | "recursive" => some do push (.cte { (← popCte) with recursive := true })
  | "search" => some do
    let c ← popCte
    push (.cte { c with search := some (← arg args 0 SearchClause.ofJson?) })
  | "cycle" => some do
    let c ← popCte
    push (.cte { c with cycle := some (← arg args 0 CycleClause.ofJson?) })
  | "select_statement" => some do push (.select (.ofQuery (← popQuery)))
  | "with" => some do
    let c ← popCte
    push (.select ((← popSelect).withCte c))
  | "insert" => some do push (.insert (.into (← targetOf args)))
  | "insert_value" => some do
    let e ← popExpr
    let s ← popInsert
    push (.insert (s.value (← arg args 0 name) e))
  | "insert_source" => some do
    let s ← popInsert
    push (.insert { s with source := ← arg args 0 InsertSource.ofJson? })
  | "update" => some do push (.update (.table (← targetOf args)))
  | "set" => some do
    let e ← popExpr
    let s ← popUpdate
    push (.update (s.set (← arg args 0 name) e))
  | "delete" => some do push (.delete (.fromTable (← targetOf args)))
  | "statement" => some do push (.statement (← pop Item.statement?))
  | "lock" =>
      some do push (.lock (.ofMode (← arg args 0 (Json.constant? LockMode.all LockMode.name))))
  | "pessimistic_write" => some do push (.lock (.ofMode .pessimisticWrite))
  | "timeout" => some do
    let l ← popLock
    push (.lock { l with timeout := ← arg args 0 LockTimeout.ofJson? })
  | "lock_alias" => some do
    let l ← popLock
    push (.lock (l.addAlias (← arg args 0 name)))
  | "follow_on_locking" => some do
    let l ← popLock
    push (.lock { l with followOnLocking := ← arg args 0 (nullable Json.bool?) })
  | "dup" => some do
    match ← get with
    | i :: rest => set (i :: i :: rest)
    | [] => throw .stack
  | "swap" => some do
    match ← get with
    | a :: b :: rest => set (b :: a :: rest)
    | _ => throw .stack
  | _ => none

def step (name : String) (args : List Json) : Build Unit :=
  (exprStep? args name <|> predicateStep? args name <|> queryStep? args name <|>
      statementStep? args name).getD
    (throw .unknownStep)

end DialectSql.Assembly
