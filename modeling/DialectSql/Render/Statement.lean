import DialectSql.Render.Query

namespace DialectSql

namespace Render

def searchItem (item : SearchItem) : Output :=
  .name item.column ++ .when (item.direction == .desc) (.word " desc")

def searchStandard (d : Dialect) (search : SearchClause) : Output :=
  if d.capabilities.searchClause = .unsupported then .empty
  else
    .word " search " ++ .word search.kind.sql ++ .word " by " ++
      .list (search.items.map searchItem) ++ .word " set " ++ .name search.sequenceColumn

/-- A search clause the dialect lacks is left out; the order of rows without one is free. -/
def searchClause (d : Dialect) (rule : SearchRule) (search : Option SearchClause) : Output :=
  match rule, search with
  | .standard, some search => searchStandard d search
  | _, _ => .empty

def cycleStandard (d : Dialect) (cte : String) (cycle : CycleClause) : Output :=
  if d.capabilities.cycleClause = .unsupported then .ofPieces [.gap (.cycleClause cte)]
  else
    .word " cycle " ++ .nameList cycle.columns ++ .word " set " ++ .name cycle.markColumn ++
      .word " to " ++ .ofPieces cycle.cycleValue.pieces ++
      .word " default " ++ .ofPieces cycle.nonCycleValue.pieces ++
      .clause " using " (cycle.pathColumn.map .name)

/-- A cycle clause the dialect lacks is noted as a gap. -/
def cycleClause (d : Dialect) (rule : CycleRule) (cte : String) (cycle : Option CycleClause) :
    Output :=
  match rule, cycle with
  | _, none => .empty
  | .standard, some cycle => cycleStandard d cte cycle
  | .gap, some _ => .ofPieces [.gap (.cycleClause cte)]

def materialization (d : Dialect) (m : CteMaterialization) : Output :=
  if d.capabilities.cteMaterialization then
    match m with
    | .materialized => .word "materialized "
    | .notMaterialized => .word "not materialized "
    | .undefined => .empty
  else .empty

def columnList (columns : List String) : Output :=
  if columns.isEmpty then .empty else .word " " ++ (Output.nameList columns).parenthesized

def cte (d : Dialect) (c : Cte) : Output :=
  .name c.name ++ columnList c.columns ++ .word " as " ++ materialization d c.materialization ++
    (query d none c.query).output.parenthesized ++
    searchClause d d.strategies.search c.search ++
    cycleClause d d.strategies.cycle c.name c.cycle

def withClause (d : Dialect) (ctes : List Cte) : Output :=
  if ctes.isEmpty then .empty
  else
    .require d.capabilities.cte (.unsupported .cte) ++ .word "with " ++
      (if ctes.any (·.recursive) then
        .require d.capabilities.recursiveCte (.unsupported .recursiveCte) ++
          .when d.capabilities.recursiveKeyword (.word "recursive ")
      else .empty) ++
      .list (ctes.map (cte d)) ++ .word " "

def select (d : Dialect) (lock : Option LockScope) (s : SelectStatement) : Output :=
  withClause d s.ctes ++ (query d lock s.query).output

/-- The rows of an insert in order. Each has a value for each named column. -/
def insertRow (d : Dialect) (columns : List String) (row : List Expr) : Output :=
  .require (columns.isEmpty || row.length == columns.length) (.tupleArity columns.length row.length)
    ++ (Output.list (operandOutputs (operands d row))).parenthesized

def insertRows (d : Dialect) (columns : List String) (rows : List (List Expr)) : Output :=
  .list (rows.map (insertRow d columns))

def insertSource (d : Dialect) (columns : List String) : InsertSource → Output
  | .defaultValues =>
    .require d.capabilities.insertDefaultValues (.unsupported .insertDefaultValues) ++
      .word " default values"
  | .values rows =>
    .require (!rows.isEmpty) (.invalid .insertWithoutRows) ++ columnList columns ++
      .word " values " ++ insertRows d columns rows
  | .query s => columnList columns ++ .word " " ++ select d none s

def insert (d : Dialect) (s : InsertStatement) : Output :=
  .word "insert into " ++ namedTable s.target ++ insertSource d s.columns s.source

def assignment (d : Dialect) (a : Assignment) : Output :=
  .name a.column ++ .word "=" ++ expression d a.value

def whereClause (d : Dialect) (p : Option Predicate) : Output :=
  condition " where " p (optionalPredicate d p)

def update (d : Dialect) (s : UpdateStatement) : Output :=
  .require (!s.assignments.isEmpty) (.invalid .updateWithoutAssignments) ++
    .word "update " ++ namedTable s.target ++ .word " set " ++
    .list (s.assignments.map (assignment d)) ++ whereClause d s.restriction

def delete (d : Dialect) (s : DeleteStatement) : Output :=
  .word "delete from " ++ namedTable s.target ++ whereClause d s.restriction

/-- A lock applies to the query of a select statement and to no other statement. -/
def statement (d : Dialect) (lock : LockOptions) : Statement → Output
  | .select s => select d (some ⟨lock, false⟩) s
  | .insert s => insert d s
  | .update s => update d s
  | .delete s => delete d s

end Render

end DialectSql
