import DialectSql.Entity.Executor

namespace DialectSql

namespace Coordinator

def keyUsage : MutationType → ParameterUsage
  | .insert => .set
  | .update | .delete => .restrict

def bindAll (table : String) (usage : ParameterUsage) :
    List (String × SqlValue) → ValueBindings → Except MutationError ValueBindings
  | [], b => .ok b
  | (column, v) :: rest, b => (b.bind table column usage v) >>= bindAll table usage rest

/-- The identifier has a value for each key column. -/
def bindTable (m : MutationTarget) (mutation : MutationType) (v : EntityValues) (t : TableMapping)
    (b : ValueBindings) : Except MutationError ValueBindings := do
  if t.keys.length ≠ v.id.length then
    throw (.illegalState (.identifierSize m.entity v.id.length t.name t.keys.length))
  let b ← bindAll t.name (keyUsage mutation) (t.keys.zip v.id) b
  if mutation = .delete then return b
  else bindAll t.name .set (t.columns.map fun c => (c, v.value t.name c)) b

def bindTables (m : MutationTarget) (mutation : MutationType) (v : EntityValues) :
    List TableMapping → ValueBindings → Except MutationError ValueBindings
  | [], b => .ok b
  | t :: ts, b => (bindTable m mutation v t b) >>= bindTables m mutation v ts

def includes (mutation : MutationType) (a : ValuesAnalysis) : TableMapping → Bool :=
  match mutation with
  | .insert => a.includesInsert
  | .update => a.includesUpdate
  | .delete => fun _ => true

/-- Binds an entity's values to all operations and runs them. Nothing is undone when one fails. -/
def mutate (m : MutationTarget) (mutation : MutationType) (v : EntityValues) (c : Connection) :
    Connection × Except MutationError Unit :=
  match MutationGroup.build c.dialect m mutation with
  | .error e => (c, .error e)
  | .ok g =>
    if g.operations.isEmpty then (c, .ok ())
    else
      match (Executor.ofGroup g).openBindings with
      | .error e => (c, .error e)
      | .ok x =>
        match bindTables m mutation v (g.operations.map (·.table)) x.bindings with
        | .error e => (c, .error e)
        | .ok b =>
          let a := ValuesAnalysis.analyze m v
          let (_, c, result) := { x with bindings := b }.execute a (includes mutation a) c
          (c, result)

def insert (m : MutationTarget) (v : EntityValues) (c : Connection) :
    Connection × Except MutationError Unit :=
  mutate m .insert v c

def update (m : MutationTarget) (v : EntityValues) (c : Connection) :
    Connection × Except MutationError Unit :=
  mutate m .update v c

def delete (m : MutationTarget) (v : EntityValues) (c : Connection) :
    Connection × Except MutationError Unit :=
  mutate m .delete v c

end Coordinator

end DialectSql
