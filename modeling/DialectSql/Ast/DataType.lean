namespace DialectSql

inductive DataType
  | smallint
  | integer
  | bigint
  | double
  | decimal (precision scale : Option UInt16)
  | char (length : Option UInt32)
  | varchar (length : Option UInt32)
  | blob
  | date
  | time
  | timestamp
  | boolean
  | custom (name : String)
deriving DecidableEq, Repr

namespace DataType

def sized (name : String) : Option UInt32 → String
  | none => name
  | some n => name ++ "(" ++ toString n.toNat ++ ")"

/-- A scale without a precision is dropped. -/
def sql : DataType → String
  | smallint => "smallint"
  | integer => "integer"
  | bigint => "bigint"
  | double => "double precision"
  | decimal (some p) (some s) => "decimal(" ++ toString p.toNat ++ "," ++ toString s.toNat ++ ")"
  | decimal (some p) none => "decimal(" ++ toString p.toNat ++ ")"
  | decimal none _ => "decimal"
  | char length => sized "char" length
  | varchar length => sized "varchar" length
  | blob => "blob"
  | date => "date"
  | time => "time"
  | timestamp => "timestamp"
  | boolean => "boolean"
  | custom name => name

end DataType

end DialectSql
