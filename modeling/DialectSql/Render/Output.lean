import DialectSql.Ast.Statement
import DialectSql.Lock
import DialectSql.Render.Error

namespace DialectSql

/-- A clause that the dialect cannot express and that was left out. -/
inductive CapabilityGap
  | cycleClause (cte : String)
  | rowLocking
deriving DecidableEq, Repr

/-- One piece of a rendered statement. Pieces without text record what was met on the way. -/
inductive Piece
  | word (text : String)
  /-- Text that comes from a name in the statement. -/
  | name (text : String)
  /-- A literal that needs no quotes. -/
  | plain (text : String)
  /-- A region in single quotes. -/
  | quoted (content : String)
  /-- A placeholder and what is bound to it. -/
  | slot (slot : BindSlot)
  /-- A fresh alias for a derived table. -/
  | derivedAlias
  /-- The name of a table that is read or written. -/
  | table (name : String)
  | gap (gap : CapabilityGap)
  | followOnLock (clause : ForUpdateClause)
deriving DecidableEq, Repr

/-- The pieces rendered so far and the error that stopped the rendering, if one did. -/
structure Output where
  pieces : List Piece
  failure : Option TranslateError
deriving DecidableEq, Repr

namespace Output

def empty : Output := ⟨[], none⟩

def ofPieces (pieces : List Piece) : Output := ⟨pieces, none⟩

def fail (e : TranslateError) : Output := ⟨[], some e⟩

def word (text : String) : Output := .ofPieces [.word text]

def name (text : String) : Output := .ofPieces [.name text]

/-- Nothing is rendered after an error. -/
def append (a b : Output) : Output :=
  match a.failure with
  | some _ => a
  | none => ⟨a.pieces ++ b.pieces, b.failure⟩

instance : Append Output := ⟨append⟩

def require (condition : Bool) (e : TranslateError) : Output := if condition then empty else fail e

def when (condition : Bool) (out : Output) : Output := if condition then out else empty

def concat : List Output → Output
  | [] => empty
  | o :: os => o ++ concat os

def joined (separator : String) : List Output → Output
  | [] => empty
  | [o] => o
  | o :: os => o ++ word separator ++ joined separator os

def parenthesized (o : Output) : Output := word "(" ++ o ++ word ")"

def list (os : List Output) : Output := joined ", " os

def nameList (names : List String) : Output := list (names.map name)

def clause (keyword : String) : Option Output → Output
  | none => empty
  | some o => word keyword ++ o

def label : Option String → Output
  | none => empty
  | some a => word " " ++ name a

end Output

def SqlValue.pieces : SqlValue → List Piece
  | .text s => [.quoted s]
  | .blob bytes => [.word "X", .quoted (hexBytes bytes)]
  | .timestamp t => [.word "timestamp ", .quoted t.sqlText]
  | v => [.plain v.literalText]

/-- Operands that are compared have equally many elements. -/
def checkArity (lhs rhs : Nat) : Output := .require (lhs == rhs) (.tupleArity lhs rhs)

end DialectSql
