namespace DialectSql

inductive LockMode
  | none
  | pessimisticRead
  | pessimisticWrite
deriving DecidableEq, Repr

namespace LockMode

def all : List LockMode := [none, pessimisticRead, pessimisticWrite]

def name : LockMode → String
  | none => "None"
  | pessimisticRead => "PessimisticRead"
  | pessimisticWrite => "PessimisticWrite"

end LockMode

inductive LockTimeout
  | wait
  | noWait
  | skipLocked
  | seconds (n : UInt32)
deriving DecidableEq, Repr

structure LockOptions where
  mode : LockMode
  timeout : LockTimeout
  aliases : List String
  followOnLocking : Option Bool
deriving DecidableEq, Repr

/-- The lock a statement carries or leaves to a following statement. -/
structure ForUpdateClause where
  mode : LockMode
  timeout : LockTimeout
  aliases : List String
deriving DecidableEq, Repr

namespace LockOptions

def ofMode (mode : LockMode) : LockOptions := ⟨mode, .wait, [], none⟩

def unlocked : LockOptions := ofMode .none

def isLocking (l : LockOptions) : Bool := l.mode != .none

def clause (l : LockOptions) : ForUpdateClause := ⟨l.mode, l.timeout, l.aliases⟩

def addAlias (l : LockOptions) (label : String) : LockOptions :=
  { l with aliases := l.aliases ++ [label] }

end LockOptions

/-- Whether a statement takes the lock itself or a following statement takes it. -/
inductive LockStrategy
  | clause
  | followOn
deriving DecidableEq, Repr

end DialectSql
