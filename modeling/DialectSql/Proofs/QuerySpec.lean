import DialectSql.Proofs.Output
import DialectSql.Render.Query

namespace DialectSql.Render

variable (d : Dialect)

/-- The select list and the tables of a query. -/
def selected (s : QuerySpec) : Output :=
  .word "select " ++
    selectListOf d (limit d s.offset) (limit d s.fetch) s.fetchKind
      (selectList s.distinct ((selections d s.selections).map fun (o, a) => o.output ++ a)) ++
    fromClause d (tableGroups d s.roots)

def grouping (s : QuerySpec) : Output :=
  if s.groupBy.isEmpty then .empty else .word " group by " ++ .list (partition d s.groupBy)

def lockOf (lock : Option LockScope) (s : QuerySpec) : Output :=
  match lock with
  | some scope => Locking.render d scope s.isAggregating
  | none => .empty

/-- What stands behind the group condition of a query. -/
def ending (lock : Option LockScope) (s : QuerySpec) : Output :=
  orderBy (sortKeys d s.orderBy) ++
    (RowLimit.clause d (limit d s.offset) (limit d s.fetch) s.fetchKind ++ lockOf d lock s)

def restrictionClause (p : Option Predicate) : Output :=
  condition " where " p (optionalPredicate d p)

def groupCondition (p : Option Predicate) : Output :=
  condition " having " p (optionalPredicate d p)

theorem output_querySpec (lock : Option LockScope) (s : QuerySpec) :
    (querySpec d lock s).output =
      selected d s ++ restrictionClause d s.restriction ++ grouping d s ++
        groupCondition d s.having ++ ending d lock s := by
  cases s
  rw [ending, ← Output.append_assoc, ← Output.append_assoc]
  rfl

/-- The lock of a query stands at its end. -/
theorem output_querySpec_lock (lock : Option LockScope) (s : QuerySpec) :
    (querySpec d lock s).output = (querySpec d none s).output ++ lockOf d lock s := by
  have hnone : lockOf d none s = .empty := rfl
  simp only [output_querySpec, ending, hnone, Output.append_assoc, Output.empty_append]

end DialectSql.Render
