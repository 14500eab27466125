import DialectSql.Entity.Mapping
import DialectSql.Entity.Values

namespace DialectSql

/-- What the values of an entity say about each of its tables, by table name. -/
structure ValuesAnalysis where
  nonNull : List String
  previouslyNonNull : List String
  knownPrevious : List String
  changed : List String
deriving DecidableEq, Repr

namespace ValuesAnalysis

def unknown : ValuesAnalysis := ⟨[], [], [], []⟩

def hasNonNullValue (v : EntityValues) (t : TableMapping) : Bool :=
  t.columns.any fun c => !(v.value t.name c).isNull

def hadNonNullValue (v : EntityValues) (t : TableMapping) : Bool :=
  v.hasPrevious t.name && t.columns.any fun c => (v.previousValue? t.name c).any fun p => !p.isNull

/-- Without a previous state a table counts as changed, and so does a column without one. -/
def isChanged (v : EntityValues) (t : TableMapping) : Bool :=
  !v.hasPrevious t.name || t.columns.any fun c =>
    match v.previousValue? t.name c with
    | none => true
    | some p => !p.same (v.value t.name c)

def analyze (m : MutationTarget) (v : EntityValues) : ValuesAnalysis where
  nonNull := (m.tables.filter (hasNonNullValue v)).map (·.name)
  previouslyNonNull := (m.tables.filter (hadNonNullValue v)).map (·.name)
  knownPrevious := (m.tables.filter fun t => v.hasPrevious t.name).map (·.name)
  changed := (m.tables.filter (isChanged v)).map (·.name)

def hasNonNull (a : ValuesAnalysis) (table : String) : Bool := a.nonNull.contains table

def hadNonNull (a : ValuesAnalysis) (table : String) : Bool := a.previouslyNonNull.contains table

/-- Unless the previous state shows that there is none, a table may have a row. -/
def mayHaveRow (a : ValuesAnalysis) (table : String) : Bool :=
  !a.knownPrevious.contains table || a.hadNonNull table

def needsUpdate (a : ValuesAnalysis) (table : String) : Bool := a.changed.contains table

def includesInsert (a : ValuesAnalysis) (t : TableMapping) : Bool :=
  !t.optional || a.hasNonNull t.name

def includesUpdate (a : ValuesAnalysis) (t : TableMapping) : Bool := a.needsUpdate t.name

end ValuesAnalysis

end DialectSql
