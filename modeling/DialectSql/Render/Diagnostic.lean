import DialectSql.Render.Document
import DialectSql.Text.Diagnostic

namespace DialectSql

def LockTimeout.diagnostic : LockTimeout → String
  | .seconds n => Diagnostic.wrapped "Seconds" (toString n)
  | t => t.constantName

def ForUpdateClause.diagnostic (c : ForUpdateClause) : String :=
  Diagnostic.record "ForUpdateClause"
    [("mode", c.mode.name), ("timeout", c.timeout.diagnostic),
      ("aliases", Diagnostic.list (c.aliases.map Diagnostic.text))]

def CapabilityGap.diagnostic : CapabilityGap → String
  | .cycleClause cte => Diagnostic.record "CycleClause" [("cte", Diagnostic.text cte)]
  | .rowLocking => "RowLocking"

end DialectSql
