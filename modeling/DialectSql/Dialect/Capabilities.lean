namespace DialectSql

inductive RowLimitStyle
  | offsetFetch
  | limitOffset
  | rowsTo
deriving DecidableEq, Repr

namespace RowLimitStyle

def all : List RowLimitStyle := [offsetFetch, limitOffset, rowsTo]

def name : RowLimitStyle → String
  | offsetFetch => "OffsetFetch"
  | limitOffset => "LimitOffset"
  | rowsTo => "RowsTo"

end RowLimitStyle

inductive PlaceholderStyle
  | question
  | dollar
  | colon
deriving DecidableEq, Repr

namespace PlaceholderStyle

def all : List PlaceholderStyle := [question, dollar, colon]

def name : PlaceholderStyle → String
  | question => "Question"
  | dollar => "Dollar"
  | colon => "Colon"

/-- The placeholder at a position, counted from one. -/
def render (style : PlaceholderStyle) (position : Nat) : String :=
  match style with
  | question => "?"
  | dollar => "$" ++ toString position
  | colon => ":" ++ toString position

end PlaceholderStyle

inductive BooleanLiteralStyle
  | keyword
  | integer
deriving DecidableEq, Repr

namespace BooleanLiteralStyle

def all : List BooleanLiteralStyle := [keyword, integer]

def name : BooleanLiteralStyle → String
  | keyword => "Keyword"
  | integer => "Integer"

end BooleanLiteralStyle

inductive DistinctFromSupport
  | native
  | emulated
deriving DecidableEq, Repr

namespace DistinctFromSupport

def all : List DistinctFromSupport := [native, emulated]

def name : DistinctFromSupport → String
  | native => "Native"
  | emulated => "Emulated"

end DistinctFromSupport

/-- Support for a clause that has no emulation. -/
inductive ClauseSupport
  | native
  | unsupported
deriving DecidableEq, Repr

namespace ClauseSupport

def all : List ClauseSupport := [native, unsupported]

def name : ClauseSupport → String
  | native => "Native"
  | unsupported => "Unsupported"

end ClauseSupport

structure LockingCapabilities where
  forUpdate : Bool
  forShare : Bool
  ofAliases : Bool
  noWait : Bool
  skipLocked : Bool
  waitSeconds : Bool
  withSetOperators : Bool
  withAggregates : Bool
deriving DecidableEq, Repr

structure Capabilities where
  rowValueConstructor : Bool
  rowValueInList : Bool
  rowValueInQuantified : Bool
  rowLimit : RowLimitStyle
  offsetRequiresLimit : Bool
  fetchWithTies : Bool
  placeholder : PlaceholderStyle
  booleanLiterals : BooleanLiteralStyle
  distinctFrom : DistinctFromSupport
  summarization : ClauseSupport
  nullPrecedence : Bool
  lateral : Bool
  cte : Bool
  recursiveCte : Bool
  recursiveKeyword : Bool
  cteMaterialization : Bool
  searchClause : ClauseSupport
  cycleClause : ClauseSupport
  dualTable : Option String
  selectRequiresFrom : Bool
  minusForExcept : Bool
  simpleQueryGrouping : Bool
  intersectExceptAll : Bool
  insertDefaultValues : Bool
  locking : LockingCapabilities
deriving DecidableEq, Repr

namespace LockingCapabilities

def unsupported : LockingCapabilities := ⟨false, false, false, false, false, false, false, false⟩

end LockingCapabilities

namespace Capabilities

def standard : Capabilities where
  rowValueConstructor := true
  rowValueInList := true
  rowValueInQuantified := true
  rowLimit := .offsetFetch
  offsetRequiresLimit := false
  fetchWithTies := true
  placeholder := .question
  booleanLiterals := .keyword
  distinctFrom := .native
  summarization := .native
  nullPrecedence := true
  lateral := true
  cte := true
  recursiveCte := true
  recursiveKeyword := true
  cteMaterialization := false
  searchClause := .native
  cycleClause := .native
  dualTable := none
  selectRequiresFrom := false
  minusForExcept := false
  simpleQueryGrouping := true
  intersectExceptAll := true
  insertDefaultValues := true
  locking :=
    { forUpdate := true
      forShare := true
      ofAliases := true
      noWait := true
      skipLocked := true
      waitSeconds := false
      withSetOperators := false
      withAggregates := false }

end Capabilities

end DialectSql
