import DialectSql.Number.Notation
import DialectSql.Timestamp

namespace DialectSql

/-- What a bind slot carries and what a literal denotes. -/
inductive SqlValue
  | null
  | bool (value : Bool)
  | int (value : Int64)
  | float (value : Binary64)
  | text (value : String)
  | blob (bytes : List UInt8)
  | timestamp (value : Timestamp)
deriving DecidableEq, Inhabited, Repr

/-- A region in single quotes; a quote inside it is written twice. -/
def quoteChars : List Char → List Char
  | [] => []
  | c :: cs => if c = '\'' then '\'' :: '\'' :: quoteChars cs else c :: quoteChars cs

def quoted (s : String) : String := String.ofList ('\'' :: quoteChars s.toList ++ ['\''])

def hexByte (b : UInt8) : List Char :=
  [Nat.digitChar (b.toNat / 16), Nat.digitChar (b.toNat % 16)].map Char.toUpper

def hexBytes (bytes : List UInt8) : String := String.ofList (bytes.flatMap hexByte)

namespace SqlValue

def isNull : SqlValue → Bool
  | .null => true
  | _ => false

def int? : SqlValue → Option Int64
  | .int n => some n
  | _ => none

def literalText : SqlValue → String
  | .null => "null"
  | .bool b => if b then "true" else "false"
  | .int n => toString n.toInt
  | .float x => x.statementText
  | .text s => quoted s
  | .blob bytes => "X" ++ quoted (hexBytes bytes)
  | .timestamp t => "timestamp " ++ quoted t.sqlText

/-- Equality of values, floats by number: zeros are equal and a NaN equals nothing. -/
def same : SqlValue → SqlValue → Bool
  | .float x, .float y => x.numericEq y
  | a, b => decide (a = b)

end SqlValue

end DialectSql
