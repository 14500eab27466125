import DialectSql.Render.Statement

namespace DialectSql

/-- A statement as it is sent to the database, and what was met while it was rendered. The affected
tables are sorted and occur once. -/
structure TranslatedSql where
  sql : String
  parameters : List BindSlot
  followOnLock : Option ForUpdateClause
  gaps : List CapabilityGap
  affectedTables : List String
deriving DecidableEq, Repr

namespace Piece

def slot? : Piece → Option BindSlot
  | .slot s => some s
  | _ => none

def table? : Piece → Option String
  | .table t => some t
  | _ => none

def gap? : Piece → Option CapabilityGap
  | .gap g => some g
  | _ => none

def followOnLock? : Piece → Option ForUpdateClause
  | .followOnLock clause => some clause
  | _ => none

/-- The text of a piece that has `slots` placeholders and `aliases` fresh aliases before it. -/
def text (style : PlaceholderStyle) (slots aliases : Nat) : Piece → String
  | .word s => s
  | .name s => s
  | .plain s => s
  | .quoted s => DialectSql.quoted s
  | .slot _ => style.render (slots + 1)
  | .derivedAlias => "grp_" ++ toString aliases ++ "_"
  | .table s => s
  | .gap _ => ""
  | .followOnLock _ => ""

end Piece

namespace Translation

/-- The texts of the pieces, placeholders and fresh aliases numbered from left to right. -/
def texts (style : PlaceholderStyle) : Nat → Nat → List Piece → List String
  | _, _, [] => []
  | slots, aliases, p :: ps =>
    p.text style slots aliases :: match p with
      | .slot _ => texts style (slots + 1) aliases ps
      | .derivedAlias => texts style slots (aliases + 1) ps
      | _ => texts style slots aliases ps

def sql (style : PlaceholderStyle) (pieces : List Piece) : String :=
  String.join (texts style 0 0 pieces)

def parameters (pieces : List Piece) : List BindSlot := pieces.filterMap Piece.slot?

/-- Each gap once, in the order of first mention. -/
def addGap (gaps : List CapabilityGap) (g : CapabilityGap) : List CapabilityGap :=
  if g ∈ gaps then gaps else gaps ++ [g]

def gaps (pieces : List Piece) : List CapabilityGap := (pieces.filterMap Piece.gap?).foldl addGap []

def insertName (name : String) : List String → List String
  | [] => [name]
  | n :: ns =>
      if name < n then name :: n :: ns else if name = n then n :: ns else n :: insertName name ns

def sortNames (names : List String) : List String := names.foldl (fun ns n => insertName n ns) []

def affectedTables (pieces : List Piece) : List String := sortNames (pieces.filterMap Piece.table?)

def followOnLock (pieces : List Piece) : Option ForUpdateClause :=
  (pieces.filterMap Piece.followOnLock?).getLast?

def ofPieces (style : PlaceholderStyle) (pieces : List Piece) : TranslatedSql :=
  { sql := sql style pieces
    parameters := parameters pieces
    followOnLock := followOnLock pieces
    gaps := gaps pieces
    affectedTables := affectedTables pieces }

def ofOutput (style : PlaceholderStyle) (o : Output) : Except TranslateError TranslatedSql :=
  match o.failure with
  | some e => .error e
  | none => .ok (ofPieces style o.pieces)

end Translation

def BindSlot.value? : BindSlot → Option SqlValue
  | .value v => some v
  | .column .. => none

def TranslatedSql.values? (t : TranslatedSql) : Option (List SqlValue) :=
  t.parameters.mapM BindSlot.value?

def translateWithLock (d : Dialect) (s : Statement) (lock : LockOptions) :
    Except TranslateError TranslatedSql :=
  Translation.ofOutput d.capabilities.placeholder (Render.statement d lock s)

def translate (d : Dialect) (s : Statement) : Except TranslateError TranslatedSql :=
  translateWithLock d s .unlocked

end DialectSql
