import DialectSql.Render.Error

namespace DialectSql

inductive ExecutorState
  | created
  | bound
  | executed
  | released
deriving DecidableEq, Repr

namespace ExecutorState

def name : ExecutorState → String
  | created => "Created"
  | bound => "Bound"
  | executed => "Executed"
  | released => "Released"

/-- The place of a state in the life of an executor. -/
def rank : ExecutorState → Nat
  | created => 0
  | bound => 1
  | executed => 2
  | released => 3

end ExecutorState

/-- A call that comes at the wrong time or with the wrong identifier. -/
inductive IllegalState
  | bindingAfter (state : ExecutorState)
  | alreadyExecuted
  | alreadyReleased
  | identifierSize (entity : String) (values : Nat) (table : String) (keys : Nat)
  | recordingFailed
deriving DecidableEq, Repr

def IllegalState.message : IllegalState → String
  | bindingAfter state => "cannot bind values once the executor is " ++ state.name
  | alreadyExecuted => "mutation executor already executed"
  | alreadyReleased => "mutation executor already released"
  | identifierSize entity values table keys =>
    entity ++ " identifier has " ++ toString values ++ " values but table " ++ table ++ " has " ++
      toString keys ++ " key columns"
  | recordingFailed => "recording failed"

inductive MutationError
  | database
  | translation (cause : TranslateError)
  | noPreparedStatement (operation table : String)
  | unknownParameter (table column : String) (usage : ParameterUsage)
  | missingBinding (table column : String) (usage : ParameterUsage)
  | unexpectedRowCount (table : String) (expected actual : Nat)
  | illegalState (cause : IllegalState)
  | unresolvedParameter (table column : String)
deriving DecidableEq, Repr

namespace MutationError

/-- The text of an error; what the database says is its own. -/
def message? : MutationError → Option String
  | database => none
  | translation cause => some ("translation error: " ++ cause.message)
  | noPreparedStatement operation table =>
    some ("unimplemented operation: self-executing mutation of " ++ operation ++
      " has no prepared statement for " ++ table)
  | unknownParameter table column usage =>
    some ("unknown parameter " ++ table ++ "." ++ column ++ " (" ++ usage.sql ++ ")")
  | missingBinding table column usage =>
    some ("no value bound for " ++ table ++ "." ++ column ++ " (" ++ usage.sql ++ ")")
  | unexpectedRowCount table expected actual =>
    some ("unexpected row count for " ++ table ++ ": expected " ++ toString expected ++
      ", actual " ++ toString actual)
  | illegalState cause => some ("illegal state: " ++ cause.message)
  | unresolvedParameter table column => some ("unresolved parameter: " ++ table ++ "." ++ column)

end MutationError

end DialectSql
