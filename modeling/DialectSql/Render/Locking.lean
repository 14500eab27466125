import DialectSql.Dialect.Basic
import DialectSql.Render.Output

namespace DialectSql

/-- What is known where a query of a statement's top level is rendered: the lock asked for, and
whether a set operation lies around the query. -/
structure LockScope where
  options : LockOptions
  underSetOperation : Bool

namespace Locking

/-- Where the lock is taken. A query that cannot carry it leaves it to a following statement, unless
that is ruled out. -/
def strategyFor (rule : LockingRule) (locking : LockingCapabilities)
    (underSetOperation aggregating : Bool) (followOn : Option Bool) : Except TranslateError LockStrategy :=
  match rule with
  | .standard =>
    if underSetOperation && !locking.withSetOperators then
      if followOn = some false then .error (.illegalLock .setOperators) else .ok .followOn
    else if aggregating && !locking.withAggregates then
      if followOn = some false then .error (.illegalLock .aggregates) else .ok .followOn
    else if followOn = some true then .ok .followOn
    else .ok .clause
  | .unlessSetOperation =>
    if underSetOperation then
      if followOn = some false then .error (.illegalLock .setOperators) else .ok .followOn
    else .ok .clause

def timeoutOutput (locking : LockingCapabilities) : LockTimeout → Output
  | .wait => .empty
  | .noWait => .when locking.noWait (.word " nowait")
  | .skipLocked => .when locking.skipLocked (.word " skip locked")
  | .seconds n =>
      .when locking.waitSeconds (.word " wait " ++ .ofPieces [.plain (toString n.toNat)])

/-- The parts of a lock that the dialect lacks are left out. -/
def forUpdate (locking : LockingCapabilities) (clause : ForUpdateClause) : Output :=
  .word
      (if clause.mode = .pessimisticRead ∧ locking.forShare then " for share" else " for update") ++
    .when (!clause.aliases.isEmpty && locking.ofAliases)
      (.word " of " ++ .nameList clause.aliases) ++
    timeoutOutput locking clause.timeout

def render (d : Dialect) (scope : LockScope) (aggregating : Bool) : Output :=
  let locking := d.capabilities.locking
  let options := scope.options
  if !options.isLocking then .empty
  else if !locking.forUpdate then .ofPieces [.gap .rowLocking]
  else
    match strategyFor d.strategies.locking locking scope.underSetOperation aggregating
        options.followOnLocking with
    | .error e => .fail e
    | .ok .followOn => .ofPieces [.followOnLock options.clause]
    | .ok .clause => forUpdate locking options.clause

end Locking

end DialectSql
