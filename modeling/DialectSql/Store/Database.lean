import DialectSql.Store.Command

namespace DialectSql.Store

/-- A table without column types. A row has a value for each column; rows keep the order of their
insertion. -/
structure Table where
  name : String
  columns : List String
  unique : List String
  rows : List (List SqlValue)
deriving Repr

abbrev Database := List Table

/-- A value as it is stored: truth values become integers and timestamps become text. -/
def storedValue : SqlValue → SqlValue
  | .bool b => .int (if b then 1 else 0)
  | .timestamp t => .text t.sqlText
  | .float x => if x.isNaN then .null else .float x
  | v => v

/-- Equality as conditions and unique constraints see it: null equals nothing, numbers are equal
across their types, texts and blobs byte by byte. -/
def equalValues : SqlValue → SqlValue → Bool
  | .int a, .int b => a == b
  | .int a, .float y => y.toInt? == some a.toInt
  | .float x, .int b => x.toInt? == some b.toInt
  | .float x, .float y => x.numericEq y
  | .text a, .text b => a == b
  | .blob a, .blob b => a == b
  | _, _ => false

/-- Equality as a union sees it, where nulls are alike. -/
def sameRow : List SqlValue → List SqlValue → Bool
  | [], [] => true
  | a :: as, b :: bs => (equalValues a b || (a.isNull && b.isNull)) && sameRow as bs
  | _, _ => false

namespace Table

def position? (t : Table) (column : String) : Option Nat := t.columns.findIdx? (· == column)

def cell (t : Table) (row : List SqlValue) (column : String) : SqlValue :=
  match t.position? column with
  | some i => row.getD i .null
  | none => .null

def uniqueKey (t : Table) (row : List SqlValue) : List SqlValue := t.unique.map (t.cell row)

/-- The unique columns of the two rows are equal, none of them null. -/
def collides (t : Table) (a b : List SqlValue) : Bool :=
  !t.unique.isEmpty && (List.zipWith equalValues (t.uniqueKey a) (t.uniqueKey b)).all id

def insertRow (t : Table) (row : List SqlValue) : Option Table :=
  if t.rows.any (t.collides row) then none else some { t with rows := t.rows ++ [row] }

def insertRows (t : Table) : List (List SqlValue) → Option Table
  | [] => some t
  | row :: rows => (t.insertRow row) >>= fun t => t.insertRows rows

/-- Rewrites the rows that are selected, one after the other, each against all others. -/
def updateRows (t : Table) (selected : List SqlValue → Bool)
    (change : List SqlValue → List SqlValue) :
    List (List SqlValue) → List (List SqlValue) → Option (List (List SqlValue))
  | done, [] => some done
  | done, row :: rows =>
    if selected row then
      let row := change row
      if (done ++ rows).any (t.collides row) then none
      else updateRows t selected change (done ++ [row]) rows
    else updateRows t selected change (done ++ [row]) rows

end Table

/-- A term whose column is known by its position. -/
inductive Cell
  | constant (value : SqlValue)
  | column (position : Nat)

namespace Cell

def value (row : List SqlValue) : Cell → SqlValue
  | .constant v => v
  | .column i => row.getD i .null

end Cell

/-- Where the columns of a term are looked up. -/
structure Scope where
  table : Option Table
  label : Option String

namespace Scope

def none : Scope := ⟨.none, .none⟩

def answersTo (s : Scope) (t : Table) : Option String → Bool
  | .none => true
  | some q => q == s.label.getD t.name

/-- A slot without a bound value is null. -/
def cell? (s : Scope) (values : List SqlValue) : Term → Option Cell
  | .constant v => some (.constant v)
  | .bound n => some (.constant (storedValue ((values[n - 1]?).getD .null)))
  | .column q name =>
    match s.table with
    | some t => if s.answersTo t q then (t.position? name).map .column else .none
    | .none => .none

def conditions? (s : Scope) (values : List SqlValue) (cs : List Condition) :
    Option (List (Cell × Cell)) :=
  cs.mapM fun c => do
    some (← s.cell? values c.left, ← s.cell? values c.right)

end Scope

def holds (conditions : List (Cell × Cell)) (row : List SqlValue) : Bool :=
  conditions.all fun (a, b) => equalValues (a.value row) (b.value row)

namespace Database

/-- Only the main schema has tables. -/
def table? (db : Database) (name : TableName) : Option Table :=
  if name.schema.getD "main" == "main" then List.find? (fun t => t.name == name.name) db else none

def replace (db : Database) (t : Table) : Database :=
  db.map fun u => if u.name = t.name then t else u

/-- A row from the values of the named columns: the first value named for a column counts, and other
columns are null. -/
def rowOf (t : Table) (columns : List String) (values : List SqlValue) : List SqlValue :=
  t.columns.map fun c => ((columns.zip values).lookup c).getD .null

def insertedRows (t : Table) (values : List SqlValue) : InsertRows → Option (List (List SqlValue))
  | .defaults => some [t.columns.map fun _ => .null]
  | .values columns rows => do
    let names := columns.getD t.columns
    if names.all (t.position? · |>.isSome) then
      rows.mapM fun row =>
        if row.length = names.length then do
          let cells ← row.mapM (Scope.none.cell? values)
          some (rowOf t names (cells.map (Cell.value [])))
        else none
    else none

/-- The last assignment to a column counts. -/
def assign (row : List SqlValue) (assignments : List (Nat × Cell)) : List SqlValue :=
  assignments.foldl (fun changed (i, c) => changed.set i (c.value row)) row

def update? (db : Database) (t : Table) (values : List SqlValue)
    (assignments : List (String × Term)) (conditions : List Condition) : Option (Database × Nat) := do
  let scope : Scope := ⟨some t, none⟩
  let assignments ← assignments.mapM fun (column, term) => do
    some (← t.position? column, ← scope.cell? values term)
  let conditions ← scope.conditions? values conditions
  let rows ← t.updateRows (holds conditions) (assign · assignments) [] t.rows
  some (db.replace { t with rows }, (t.rows.filter (holds conditions)).length)

def delete? (db : Database) (t : Table) (values : List SqlValue) (conditions : List Condition) :
    Option (Database × Nat) := do
  let conditions ← Scope.conditions? ⟨some t, none⟩ values conditions
  some (db.replace { t with rows := t.rows.filter fun row => !holds conditions row },
    (t.rows.filter (holds conditions)).length)

def selected? (db : Database) (values : List SqlValue) (core : SelectCore) :
    Option (List (List SqlValue)) := do
  let (scope, rows) ← match core.source with
    | none => some (Scope.none, [[]])
    | some (name, label) => (db.table? name).map fun t => (⟨some t, label⟩, t.rows)
  let conditions ← scope.conditions? values core.conditions
  let rows := rows.filter (holds conditions)
  match core.items with
  | none => if core.source.isSome then some rows else none
  | some items => do
    let cells ← items.mapM (scope.cell? values)
    some (rows.map fun row => cells.map (Cell.value row))

/-- A row limit: an integer, or a value that is one in another form. -/
def limitValue? : SqlValue → Option Int
  | .int n => some n.toInt
  | .float x => x.toInt?
  | .text s => s.toInt?
  | _ => none

def limit? (values : List SqlValue) : Option Term → Option (Option Int)
  | none => some none
  | some term => do
    let c ← Scope.none.cell? values term
    (limitValue? (c.value [])).map some

/-- A negative limit is none, a negative offset is zero. -/
def window (limit offset : Option Int) (rows : List (List SqlValue)) : List (List SqlValue) :=
  let rows := rows.drop (offset.getD 0).toNat
  match limit with
  | some n => if n < 0 then rows else rows.take n.toNat
  | none => rows

def distinctRows (rows : List (List SqlValue)) : List (List SqlValue) :=
  rows.foldl (fun kept row => if kept.any (sameRow row) then kept else kept ++ [row]) []

/-- The rows of a query; none for a command that is no query. -/
def query? (db : Database) (values : List SqlValue) : Command → Option (List (List SqlValue))
  | .select core limit offset => do
    let rows ← db.selected? values core
    some (window (← limit? values limit) (← limit? values offset) rows)
  | .union keepsDuplicates left right => do
    let l ← db.selected? values left
    let r ← db.selected? values right
    if left.items.map List.length = right.items.map List.length then
      some (if keepsDuplicates then l ++ r else distinctRows (l ++ r))
    else none
  | _ => none

/-- Runs a command that changes rows and counts them; none if it fails, and then nothing changes. -/
def change? (db : Database) (values : List SqlValue) : Command → Option (Database × Nat)
  | .insert name rows => do
    let t ← db.table? name
    let rows ← insertedRows t values rows
    let t ← t.insertRows rows
    some (db.replace t, rows.length)
  | .update name assignments conditions => do
    let t ← db.table? name
    db.update? t values assignments conditions
  | .delete name conditions => do
    let t ← db.table? name
    db.delete? t values conditions
  | command => (db.query? values command).map fun _ => (db, 0)

def create? (db : Database) (t : Table) : Option Database := do
  let named := !t.columns.isEmpty && t.columns.Nodup && t.unique.all t.columns.contains
  if named && db.all (·.name != t.name) && t.rows.all (·.length == t.columns.length) then do
    let filled ← { t with rows := [] }.insertRows (t.rows.map (List.map storedValue))
    some (db ++ [filled])
  else none

def ofTables? (tables : List Table) : Option Database := tables.foldlM create? []

end Database

end DialectSql.Store
