import DialectSql.Entity.Group

namespace DialectSql

inductive Plan
  | singleTable (op : PreparedOperation)
  | singleSelfExecuting (op : SelfExecuting)
  | multiTable (group : MutationGroup)

namespace Plan

/-- A group of one operation is run by it alone. -/
def ofGroup (g : MutationGroup) : Plan :=
  match g.operations with
  | [.prepared op] => .singleTable op
  | [.selfExecuting op] => .singleSelfExecuting op
  | _ => .multiTable g

def variant : Plan → String
  | singleTable _ => "SingleTable"
  | singleSelfExecuting _ => "SingleSelfExecuting"
  | multiTable _ => "MultiTable"

/-- Which columns can be bound. A self-executing operation alone takes them under any table name. -/
def resolve? : Plan → String → String → ParameterUsage → Option ValueDescriptor
  | singleTable op, table, column, usage =>
      if table = op.table.name then op.descriptor? column usage else none
  | singleSelfExecuting op, _, column, usage => op.descriptor? column usage
  | multiTable g, table, column, usage => (g.operation? table) >>= (·.descriptor? column usage)

def bindings (p : Plan) (entity : String) : ValueBindings :=
  match p with
  | singleTable op => .empty op.mutation entity p.resolve?
  | singleSelfExecuting op => .empty op.mutation entity p.resolve?
  | multiTable g => .empty g.mutation entity p.resolve?

/-- Runs operations in order until one fails; an excluded table's values are released unused. -/
def performAll (a : ValuesAnalysis) (includes : TableMapping → Bool) :
    List MutationOperation → Running → Running × Except MutationError Unit
  | [], r => (r, .ok ())
  | op :: ops, r =>
    if includes op.table then
      match op.perform a r with
      | (r, .error e) => (r, .error e)
      | (r, .ok ()) => performAll a includes ops r
    else performAll a includes ops (r.release op.table.name)

def perform (p : Plan) (a : ValuesAnalysis) (includes : TableMapping → Bool) (r : Running) :
    Running × Except MutationError Unit :=
  match p with
  | singleTable op =>
    if includes op.table then op.perform r else (r.release op.table.name, .ok ())
  | singleSelfExecuting op => if includes op.table then op.perform a r else (r, .ok ())
  | multiTable g => performAll a includes g.operations r

def prepared? : Plan → String → Except MutationError (Option PreparedOperation)
  | singleTable op, table => .ok (if op.table.name = table then some op else none)
  | singleSelfExecuting op, table => .error (.noPreparedStatement op.table.name table)
  | multiTable g, table =>
    match g.operation? table with
    | some (.prepared op) => .ok (some op)
    | _ => .ok none

end Plan

structure Executor where
  plan : Plan
  state : ExecutorState
  bindings : ValueBindings

namespace Executor

def ofPlan (p : Plan) (entity : String) : Executor := ⟨p, .created, p.bindings entity⟩

def ofGroup (g : MutationGroup) : Executor := ofPlan (.ofGroup g) g.target.entity

/-- The executor that runs a group as one of several tables, whatever its size. -/
def multiTable (g : MutationGroup) : Executor := ofPlan (.multiTable g) g.target.entity

/-- Opens the bindings, which is possible until the group has run. -/
def openBindings (x : Executor) : Except MutationError Executor :=
  match x.state with
  | .created => .ok { x with state := .bound }
  | .bound => .ok x
  | state => .error (.illegalState (.bindingAfter state))

def bind (x : Executor) (table column : String) (usage : ParameterUsage) (v : SqlValue) :
    Executor × Except MutationError Unit :=
  match x.openBindings with
  | .error e => (x, .error e)
  | .ok x =>
    match x.bindings.bind table column usage v with
    | .error e => (x, .error e)
    | .ok b => ({ x with bindings := b }, .ok ())

/-- Once begun the group counts as run, also if it fails. -/
def execute (x : Executor) (a : ValuesAnalysis) (includes : TableMapping → Bool) (c : Connection) :
    Executor × Connection × Except MutationError Unit :=
  match x.state with
  | .executed => (x, c, .error (.illegalState .alreadyExecuted))
  | .released => (x, c, .error (.illegalState .alreadyReleased))
  | _ =>
    let (r, result) := x.plan.perform a includes ⟨x.bindings, c⟩
    ({ x with state := .executed, bindings := r.bindings }, r.connection, result)

def release (x : Executor) : Executor :=
  match x.state with
  | .released => x
  | _ => { x with state := .released, bindings := x.bindings.clear }

end Executor

end DialectSql
