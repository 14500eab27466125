import DialectSql.Entity.Connection
import DialectSql.Render.Diagnostic

namespace DialectSql

/-- What a query gave, and what of it the database was not asked. -/
structure SelectResult where
  rows : List (List SqlValue)
  followOnLock : Option ForUpdateClause
  gaps : List CapabilityGap

def SelectResult.diagnostic (r : SelectResult) : String :=
  Diagnostic.record "SelectResult"
    [("rows", toString r.rows.length),
      ("follow_on_lock", Diagnostic.option ForUpdateClause.diagnostic r.followOnLock),
      ("capability_gaps", Diagnostic.list (r.gaps.map CapabilityGap.diagnostic))]

namespace Select

/-- A query has nothing bound to columns. -/
def slotValue : BindSlot → Except MutationError SqlValue
  | .value v => .ok v
  | .column table column _ => .error (.unresolvedParameter table column)

def run (c : Connection) (s : Statement) (lock : LockOptions) :
    Connection × Except MutationError SelectResult :=
  match translateWithLock c.dialect s lock with
  | .error e => (c, .error (.translation e))
  | .ok t =>
    match t.parameters.mapM slotValue with
    | .error e => (c, .error e)
    | .ok values =>
      match c.fetch t.sql values with
      | (c, .error e) => (c, .error e)
      | (c, .ok rows) => (c, .ok ⟨rows, t.followOnLock, t.gaps⟩)

end Select

end DialectSql
