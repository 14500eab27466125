import DialectSql.Ast.Builder
import DialectSql.Json.Member
import DialectSql.Lock

namespace DialectSql.Assembly

inductive Item
  | expr (e : Expr)
  | predicate (p : Predicate)
  | sort (k : SortKey)
  | spec (s : QuerySpec)
  | group (g : QueryGroup)
  | table (g : TableGroup)
  | join (j : TableJoin)
  | cte (c : Cte)
  | select (s : SelectStatement)
  | insert (s : InsertStatement)
  | update (s : UpdateStatement)
  | delete (s : DeleteStatement)
  | statement (s : Statement)
  | lock (l : LockOptions)

inductive Fault
  | stack
  | argument
  | unknownStep
deriving DecidableEq, Repr

/-- A step of the construction works on a stack of parts, its top first. -/
abbrev Build := StateT (List Item) (Except Fault)

def push (i : Item) : Build Unit := modify (i :: ·)

/-- Takes the top, which has to be of the right kind. -/
def pop {α : Type} (pick : Item → Option α) : Build α := do
  match ← get with
  | [] => throw .stack
  | i :: rest =>
    match pick i with
    | some a =>
      set rest
      return a
    | none => throw .stack

/-- Takes several parts, in the order in which they were pushed. -/
def popMany {α : Type} (pick : Item → Option α) : Nat → Build (List α)
  | 0 => return []
  | n + 1 => do
    let last ← pop pick
    return (← popMany pick n) ++ [last]

namespace Item

def expr? : Item → Option Expr
  | expr e => some e
  | _ => none

def predicate? : Item → Option Predicate
  | predicate p => some p
  | _ => none

def query? : Item → Option Query
  | spec s => some (.spec s)
  | group g => some (.group g)
  | _ => none

/-- Whatever is a statement, or a query as a statement of its own. -/
def statement? : Item → Option Statement
  | select s => some (.select s)
  | insert s => some (.insert s)
  | update s => some (.update s)
  | delete s => some (.delete s)
  | i => i.query?.map fun q => .select (.ofQuery q)

end Item

def popExpr : Build Expr := pop Item.expr?

def popPredicate : Build Predicate := pop Item.predicate?

def popQuery : Build Query := pop Item.query?

def popSort : Build SortKey := pop fun
  | .sort k => some k
  | _ => none

def popSpec : Build QuerySpec := pop fun
  | .spec s => some s
  | _ => none

def popTable : Build TableGroup := pop fun
  | .table g => some g
  | _ => none

def popJoin : Build TableJoin := pop fun
  | .join j => some j
  | _ => none

def popCte : Build Cte := pop fun
  | .cte c => some c
  | _ => none

def popSelect : Build SelectStatement := pop fun
  | .select s => some s
  | _ => none

def popInsert : Build InsertStatement := pop fun
  | .insert s => some s
  | _ => none

def popUpdate : Build UpdateStatement := pop fun
  | .update s => some s
  | _ => none

def popLock : Build LockOptions := pop fun
  | .lock l => some l
  | _ => none

/-- An argument by its position; a missing one reads as null. -/
def arg {α : Type} (args : List Json) (i : Nat) (read : Json.Reading α) : Build α :=
  match ((args[i]?).getD .null).readAs read with
  | some a => return a
  | none => throw .argument

def nullable {α : Type} (read : Json → Option α) : Json.Reading (Option α) :=
  Json.leaf (Json.option? read)

def name : Json.Reading String := Json.leaf Json.string?

def count : Json.Reading Nat := Json.leaf fun j => j.uint64?.map UInt64.toNat

end DialectSql.Assembly
