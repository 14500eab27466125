import DialectSql.Ast.Statement

namespace DialectSql

/-- One table of an entity. An optional table has a row only while one of its value columns is not
null. -/
structure TableMapping where
  name : String
  schema : Option String
  keys : List String
  columns : List String
  optional : Bool
deriving DecidableEq, Inhabited, Repr

/-- An entity and its tables; the first one identifies it. -/
structure MutationTarget where
  entity : String
  tables : List TableMapping
deriving DecidableEq, Repr

namespace TableMapping

def namedTable (t : TableMapping) : NamedTable := ⟨t.schema, t.name⟩

def isKey (t : TableMapping) (column : String) : Bool := t.keys.contains column

def hasColumn (t : TableMapping) (column : String) : Bool :=
  t.isKey column || t.columns.contains column

end TableMapping

namespace MutationTarget

def table? (m : MutationTarget) (name : String) : Option TableMapping :=
  m.tables.find? (·.name == name)

def identifierTable? (m : MutationTarget) : Option TableMapping := m.tables.head?

end MutationTarget

end DialectSql
