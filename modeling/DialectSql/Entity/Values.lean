import DialectSql.Value

namespace DialectSql

/-- Values by table and column, each cell once. -/
abbrev CellValues := List ((String × String) × SqlValue)

namespace CellValues

def get? (m : CellValues) (table column : String) : Option SqlValue := m.lookup (table, column)

/-- Sets a cell; a later value replaces an earlier one. -/
def put (m : CellValues) (table column : String) (v : SqlValue) : CellValues :=
  m.filter (fun cell => cell.1 != (table, column)) ++ [((table, column), v)]

def hasTable (m : CellValues) (table : String) : Bool := m.any fun cell => cell.1.1 == table

/-- The same cells with the same values, in any order. -/
def same (a b : CellValues) : Bool :=
  a.length == b.length && a.all fun (cell, v) => (b.lookup cell).any v.same

end CellValues

/-- The state of an entity that a mutation is given: its identifier, its current values, and what is
known of the stored ones. -/
structure EntityValues where
  id : List SqlValue
  state : CellValues
  previous : CellValues
deriving Repr

namespace EntityValues

def ofId (id : List SqlValue) : EntityValues := ⟨id, [], []⟩

def set (v : EntityValues) (table column : String) (x : SqlValue) : EntityValues :=
  { v with state := v.state.put table column x }

def setPrevious (v : EntityValues) (table column : String) (x : SqlValue) : EntityValues :=
  { v with previous := v.previous.put table column x }

/-- A column without a value is null. -/
def value (v : EntityValues) (table column : String) : SqlValue :=
  (v.state.get? table column).getD .null

def previousValue? (v : EntityValues) (table column : String) : Option SqlValue :=
  v.previous.get? table column

def hasPrevious (v : EntityValues) (table : String) : Bool := v.previous.hasTable table

def sameId : List SqlValue → List SqlValue → Bool
  | [], [] => true
  | a :: as, b :: bs => a.same b && sameId as bs
  | _, _ => false

def same (v w : EntityValues) : Bool :=
  sameId v.id w.id && v.state.same w.state && v.previous.same w.previous

end EntityValues

end DialectSql
