import DialectSql.Ast.Builder
import DialectSql.Entity.Analysis
import DialectSql.Entity.Bindings
import DialectSql.Entity.Connection

namespace DialectSql

/-- The bindings of a mutation and the connection it runs on. -/
structure Running where
  bindings : ValueBindings
  connection : Connection

abbrev Expectation := Option Nat

def Expectation.verify (e : Expectation) (table : String) (actual : Nat) :
    Except MutationError Unit :=
  match e with
  | some expected =>
      if expected = actual then .ok () else .error (.unexpectedRowCount table expected actual)
  | none => .ok ()

/-- The position of the first slot that a test accepts, counted from one. -/
def slotPosition? (accepts : BindSlot → Bool) (slots : List BindSlot) : Option Nat :=
  (slots.findIdx? accepts).map (· + 1)

def Running.run (r : Running) (s : TranslatedSql) : Running × Except MutationError Nat :=
  match r.bindings.slotValues s.parameters with
  | .error e => (r, .error e)
  | .ok values =>
    let (c, count) := r.connection.execute s.sql values
    ({ r with connection := c }, count)

def Running.release (r : Running) (table : String) : Running :=
  { r with bindings := r.bindings.release table }

structure PreparedOperation where
  table : TableMapping
  mutation : MutationType
  statement : TranslatedSql
  expectation : Expectation

namespace PreparedOperation

def descriptor? (op : PreparedOperation) (column : String) (usage : ParameterUsage) :
    Option ValueDescriptor :=
  (slotPosition? (· == .column op.table.name column usage) op.statement.parameters).map
    (⟨op.table.name, column, usage, ·⟩)

/-- The table's values are released once the statement has run, before its row count is verified. -/
def perform (op : PreparedOperation) (r : Running) : Running × Except MutationError Unit :=
  match r.run op.statement with
  | (r, .error e) => (r, .error e)
  | (r, .ok count) => (r.release op.table.name, op.expectation.verify op.table.name count)

end PreparedOperation

namespace TableMapping

def parameter (t : TableMapping) (usage : ParameterUsage) (column : String) : Expr :=
  .columnParameter t.name column usage

def keyRestriction (t : TableMapping) : Predicate :=
  .conjunction (t.keys.map fun k => (Expr.column none k).compare .equal (t.parameter .restrict k))

def insertStatement (t : TableMapping) (keyUsage : ParameterUsage) : Statement :=
  let values := t.keys.map (fun k => (k, t.parameter keyUsage k)) ++
    t.columns.map (fun c => (c, t.parameter .set c))
  .insert (values.foldl (fun (s : InsertStatement) v => s.value v.1 v.2) (.into t.namedTable))

def updateStatement (t : TableMapping) : Statement :=
  .update ((t.columns.foldl (fun (s : UpdateStatement) c => s.set c (t.parameter .set c))
    (.table t.namedTable)).restrict t.keyRestriction)

def deleteStatement (t : TableMapping) : Statement :=
  .delete ((DeleteStatement.fromTable t.namedTable).restrict t.keyRestriction)

end TableMapping

/-- A statement without values, as a mutation uses it. -/
def renderMutation (d : Dialect) (s : Statement) : Except MutationError TranslatedSql :=
  match translate d s with
  | .ok t => .ok t
  | .error e => .error (.translation e)

/-- The update of an optional table, which has to insert, update or delete its row. -/
structure OptionalUpdate where
  table : TableMapping
  deletion : TranslatedSql
  update : TranslatedSql
  insertion : TranslatedSql

namespace OptionalUpdate

def ofTable (d : Dialect) (t : TableMapping) : Except MutationError OptionalUpdate := do
  let deletion ← renderMutation d t.deleteStatement
  let update ← renderMutation d t.updateStatement
  let insertion ← renderMutation d (t.insertStatement .restrict)
  return ⟨t, deletion, update, insertion⟩

def isColumn (column : String) (usage : ParameterUsage) : BindSlot → Bool
  | .column _ c u => c == column && u == usage
  | .value _ => false

def descriptor? (op : OptionalUpdate) (column : String) (usage : ParameterUsage) :
    Option ValueDescriptor :=
  (slotPosition? (isColumn column usage) op.update.parameters).map
    (⟨op.table.name, column, usage, ·⟩)

def allNull (op : OptionalUpdate) (b : ValueBindings) : Bool :=
  op.table.columns.all fun c => ((b.value? op.table.name c .set).getD .null).isNull

/-- Without a row that the update touched, the row is inserted. -/
def upsert (op : OptionalUpdate) (mayHaveRow : Bool) (r : Running) :
    Running × Except MutationError Unit :=
  let (r, updated) := if mayHaveRow then r.run op.update else (r, .ok 0)
  match updated with
  | .error e => (r, .error e)
  | .ok 0 =>
    match r.run op.insertion with
    | (r, .error e) => (r, .error e)
    | (r, .ok inserted) => (r, Expectation.verify (some 1) op.table.name inserted)
  | .ok _ => (r, .ok ())

/-- With all values null the row is deleted, if there may be one. -/
def remove (op : OptionalUpdate) (mayHaveRow : Bool) (r : Running) :
    Running × Except MutationError Unit :=
  if mayHaveRow then
    match r.run op.deletion with
    | (r, .error e) => (r, .error e)
    | (r, .ok _) => (r, .ok ())
  else (r, .ok ())

def perform (op : OptionalUpdate) (a : ValuesAnalysis) (r : Running) :
    Running × Except MutationError Unit :=
  let mayHaveRow := a.mayHaveRow op.table.name
  let (r, result) :=
    if op.allNull r.bindings then op.remove mayHaveRow r else op.upsert mayHaveRow r
  match result with
  | .error e => (r, .error e)
  | .ok () => (r.release op.table.name, .ok ())

end OptionalUpdate

/-- An operation that runs no statement and notes what it was given. -/
structure RecordingOperation where
  operation : Nat
  table : TableMapping
  fails : Bool

namespace RecordingOperation

def descriptor? (op : RecordingOperation) (column : String) (usage : ParameterUsage) :
    Option ValueDescriptor :=
  let known := match usage with
    | .set => op.table.columns.contains column
    | .restrict => op.table.keys.contains column
  if known then some ⟨op.table.name, column, usage, 1⟩ else none

def perform (op : RecordingOperation) (a : ValuesAnalysis) (r : Running) :
    Running × Except MutationError Unit :=
  let seen : Recording :=
    ⟨op.operation, op.table.name, (r.bindings.group op.table.name).map (·.value),
      a.needsUpdate op.table.name⟩
  ({ r with connection := { r.connection with recordings := r.connection.recordings ++ [seen] } },
    if op.fails then .error (.illegalState .recordingFailed) else .ok ())

end RecordingOperation

/-- An operation that decides itself which statements to run. -/
inductive SelfExecuting
  | optionalUpdate (op : OptionalUpdate)
  | recording (op : RecordingOperation)

namespace SelfExecuting

def table : SelfExecuting → TableMapping
  | optionalUpdate op => op.table
  | recording op => op.table

def mutation (_ : SelfExecuting) : MutationType := .update

def descriptor? (op : SelfExecuting) (column : String) (usage : ParameterUsage) :
    Option ValueDescriptor :=
  match op with
  | optionalUpdate op => op.descriptor? column usage
  | recording op => op.descriptor? column usage

def perform (op : SelfExecuting) (a : ValuesAnalysis) (r : Running) :
    Running × Except MutationError Unit :=
  match op with
  | optionalUpdate op => op.perform a r
  | recording op => op.perform a r

end SelfExecuting

inductive MutationOperation
  | prepared (op : PreparedOperation)
  | selfExecuting (op : SelfExecuting)

namespace MutationOperation

def table : MutationOperation → TableMapping
  | prepared op => op.table
  | selfExecuting op => op.table

def mutation : MutationOperation → MutationType
  | prepared op => op.mutation
  | selfExecuting op => op.mutation

def descriptor? (op : MutationOperation) (column : String) (usage : ParameterUsage) :
    Option ValueDescriptor :=
  match op with
  | prepared op => op.descriptor? column usage
  | selfExecuting op => op.descriptor? column usage

def perform (op : MutationOperation) (a : ValuesAnalysis) (r : Running) :
    Running × Except MutationError Unit :=
  match op with
  | prepared op => op.perform r
  | selfExecuting op => op.perform a r

end MutationOperation

end DialectSql
