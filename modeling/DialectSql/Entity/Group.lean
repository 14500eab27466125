import DialectSql.Entity.Operation

namespace DialectSql

/-- The operations of one mutation of an entity, in the order in which they run. -/
structure MutationGroup where
  mutation : MutationType
  target : MutationTarget
  operations : List MutationOperation

namespace MutationGroup

def operation? (g : MutationGroup) (table : String) : Option MutationOperation :=
  g.operations.find? (·.table.name == table)

def preparedOperation (d : Dialect) (t : TableMapping) (mutation : MutationType) (s : Statement)
    (e : Expectation) : Except MutationError MutationOperation := do
  return .prepared ⟨t, mutation, ← renderMutation d s, e⟩

def insertOperation (d : Dialect) (t : TableMapping) : Except MutationError MutationOperation :=
  preparedOperation d t .insert (t.insertStatement .set) (some 1)

def updateOperation (d : Dialect) (t : TableMapping) : Except MutationError MutationOperation :=
  if t.optional then do return .selfExecuting (.optionalUpdate (← OptionalUpdate.ofTable d t))
  else preparedOperation d t .update t.updateStatement (some 1)

/-- An optional table need not have had a row. -/
def deleteOperation (d : Dialect) (t : TableMapping) : Except MutationError MutationOperation :=
  preparedOperation d t .delete t.deleteStatement (if t.optional then none else some 1)

/-- Inserts go through the tables in order, deletes in reverse; a table without value columns
needs no update. -/
def build (d : Dialect) (m : MutationTarget) (mutation : MutationType) :
    Except MutationError MutationGroup := do
  let operations ← match mutation with
    | .insert => m.tables.mapM (insertOperation d)
    | .update => (m.tables.filter fun t => !t.columns.isEmpty).mapM (updateOperation d)
    | .delete => m.tables.reverse.mapM (deleteOperation d)
  return ⟨mutation, m, operations⟩

end MutationGroup

end DialectSql
