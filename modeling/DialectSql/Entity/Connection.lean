import DialectSql.Dialect.Basic
import DialectSql.Entity.Error
import DialectSql.Store.Database

namespace DialectSql

/-- A statement that was sent to the database with the values of its parameters, whether it succeeded
or not. -/
structure SentStatement where
  sql : String
  values : List SqlValue
deriving DecidableEq, Repr

def SentStatement.parameters (s : SentStatement) : Nat := s.values.length

structure Recording where
  operation : Nat
  table : String
  values : List SqlValue
  needsUpdate : Bool
deriving DecidableEq, Repr

/-- One connection: the dialect that statements are rendered for, the database, what was sent to it,
and what recording operations noted. -/
structure Connection where
  dialect : Dialect
  database : Store.Database
  sent : List SentStatement
  recordings : List Recording

namespace Connection

def start (d : Dialect) (db : Store.Database) : Connection := ⟨d, db, [], []⟩

def note (c : Connection) (sql : String) (values : List SqlValue) : Connection :=
  { c with sent := c.sent ++ [⟨sql, values⟩] }

/-- Runs a statement and counts the rows it touched. A statement that fails changes nothing. -/
def execute (c : Connection) (sql : String) (values : List SqlValue) :
    Connection × Except MutationError Nat :=
  let c := c.note sql values
  match Store.Command.ofText? sql >>= c.database.change? values with
  | some (db, count) => ({ c with database := db }, .ok count)
  | none => (c, .error .database)

/-- Runs a statement and fetches its rows; one that is no query has none. -/
def fetch (c : Connection) (sql : String) (values : List SqlValue) :
    Connection × Except MutationError (List (List SqlValue)) :=
  let c := c.note sql values
  match Store.Command.ofText? sql with
  | none => (c, .error .database)
  | some command =>
    match c.database.query? values command with
    | some rows => (c, .ok rows)
    | none =>
      match c.database.change? values command with
      | some (db, _) => ({ c with database := db }, .ok [])
      | none => (c, .error .database)

end Connection

end DialectSql
