import DialectSql.Number.Nearest
import DialectSql.Store.Token

namespace DialectSql.Store

/-- A value in a command: written out, bound, or taken from a row. -/
inductive Term
  | constant (value : SqlValue)
  | bound (position : Nat)
  | column (qualifier : Option String) (name : String)
deriving DecidableEq, Repr

structure TableName where
  schema : Option String
  name : String
deriving DecidableEq, Repr

structure Condition where
  left : Term
  right : Term
deriving DecidableEq, Repr

inductive InsertRows
  | values (columns : Option (List String)) (rows : List (List Term))
  | defaults
deriving DecidableEq, Repr

/-- One select: its items, or all columns, from at most one table. -/
structure SelectCore where
  items : Option (List Term)
  source : Option (TableName × Option String)
  conditions : List Condition
deriving DecidableEq, Repr

inductive Command
  | insert (table : TableName) (rows : InsertRows)
  | update (table : TableName) (assignments : List (String × Term)) (conditions : List Condition)
  | delete (table : TableName) (conditions : List Condition)
  | select (core : SelectCore) (limit offset : Option Term)
  | union (keepsDuplicates : Bool) (left right : SelectCore)
deriving DecidableEq, Repr

namespace Command

/-- Words of the language that name neither tables nor columns. -/
def reserved : List String :=
  ["add", "all", "alter", "and", "as", "autoincrement", "between", "case", "check", "collate",
    "commit", "constraint", "create", "default", "deferrable", "delete", "distinct", "drop",
    "else", "escape", "except", "exists", "foreign", "from", "group", "having", "in", "index",
    "insert", "intersect", "into", "is", "isnull", "join", "limit", "not", "nothing", "notnull",
    "null", "on", "or", "order", "primary", "references", "returning", "select", "set", "table",
    "then", "to", "transaction", "union", "unique", "update", "using", "values", "when", "where"]

def keyword (w : String) : String := w.map Char.toLower

def isName (w : String) : Bool := !reserved.contains (keyword w)

def afterWord (w : String) : List Token → Option (List Token)
  | .word v :: ts => if keyword v = w then some ts else none
  | _ => none

def afterSymbol (c : Char) : List Token → Option (List Token)
  | .symbol d :: ts => if d = c then some ts else none
  | _ => none

def name? : List Token → Option (String × List Token)
  | .word w :: ts => if isName w then some (w, ts) else none
  | _ => none

def tableName? (ts : List Token) : Option (TableName × List Token) := do
  let (first, ts) ← name? ts
  match ts with
  | .symbol '.' :: ts => do
    let (second, ts) ← name? ts
    some (⟨some first, second⟩, ts)
  | ts => some (⟨none, first⟩, ts)

def integerValue (n : Int) : SqlValue :=
  if Int64.minValue.toInt ≤ n ∧ n ≤ Int64.maxValue.toInt then .int (Int64.ofInt n)
  else .float ((Binary64.ofInt n).getD (.zero false))

/-- A decimal that is too large is infinite. -/
def decimalValue (negative : Bool) (digits places : Nat) : SqlValue :=
  .float ((Binary64.ofDecimal negative digits (-(places : Int))).getD (.ofFields negative 2047 0))

def term? : List Token → Option (Term × List Token)
  | .integer n :: ts => some (.constant (integerValue n), ts)
  | .decimal digits places :: ts => some (.constant (decimalValue false digits places), ts)
  | .symbol '-' :: .integer n :: ts => some (.constant (integerValue (-(n : Int))), ts)
  | .symbol '-' :: .decimal digits places :: ts =>
      some (.constant (decimalValue true digits places), ts)
  | .text s :: ts => some (.constant (.text s), ts)
  | .blob bytes :: ts => some (.constant (.blob bytes), ts)
  | .placeholder (some n) :: ts => some (.bound n, ts)
  | .word w :: .symbol '.' :: .word v :: ts =>
    if isName w && isName v then some (.column (some w) v, ts) else none
  | .word w :: ts =>
    match keyword w with
    | "null" => some (.constant .null, ts)
    | "true" => some (.constant (.int 1), ts)
    | "false" => some (.constant (.int 0), ts)
    | _ => if isName w then some (.column none w, ts) else none
  | _ => none

/-- Items with commas between them; `fuel` bounds their number. -/
def commaSeparated {α : Type} (item : List Token → Option (α × List Token)) :
    Nat → List Token → Option (List α × List Token)
  | 0, _ => none
  | fuel + 1, ts => do
    let (a, ts) ← item ts
    match ts with
    | .symbol ',' :: ts => do
      let (as, ts) ← commaSeparated item fuel ts
      some (a :: as, ts)
    | ts => some ([a], ts)

def listOf {α : Type} (item : List Token → Option (α × List Token)) (ts : List Token) :
    Option (List α × List Token) :=
  commaSeparated item (ts.length + 1) ts

def parenthesized {α : Type} (item : List Token → Option (α × List Token)) (ts : List Token) :
    Option (List α × List Token) := do
  let ts ← afterSymbol '(' ts
  let (as, ts) ← listOf item ts
  some (as, ← afterSymbol ')' ts)

def condition? (ts : List Token) : Option (Condition × List Token) := do
  let (left, ts) ← term? ts
  let (right, ts) ← afterSymbol '=' ts >>= term?
  some (⟨left, right⟩, ts)

def conjunction : Nat → List Token → Option (List Condition × List Token)
  | 0, _ => none
  | fuel + 1, ts => do
    let (c, ts) ← condition? ts
    match afterWord "and" ts with
    | some ts => do
      let (cs, ts) ← conjunction fuel ts
      some (c :: cs, ts)
    | none => some ([c], ts)

def whereClause (ts : List Token) : Option (List Condition × List Token) :=
  match afterWord "where" ts with
  | some ts => conjunction (ts.length + 1) ts
  | none => some ([], ts)

def ended {α : Type} : α × List Token → Option α
  | (a, []) => some a
  | _ => none

def assignment? (ts : List Token) : Option ((String × Term) × List Token) := do
  let (column, ts) ← name? ts
  let (value, ts) ← afterSymbol '=' ts >>= term?
  some ((column, value), ts)

def insert? (ts : List Token) : Option Command := do
  let (table, ts) ← afterWord "into" ts >>= tableName?
  match afterWord "default" ts with
  | some ts =>
    let rest ← afterWord "values" ts
    if rest.isEmpty then some (.insert table .defaults) else none
  | none =>
    let (columns, ts) ← match afterSymbol '(' ts with
      | some _ => (parenthesized name? ts).map fun (columns, ts) => (some columns, ts)
      | none => some (none, ts)
    let ts ← afterWord "values" ts
    let rows ← listOf (parenthesized term?) ts >>= ended
    some (.insert table (.values columns rows))

def update? (ts : List Token) : Option Command := do
  let (table, ts) ← tableName? ts
  let ts ← afterWord "set" ts
  let (assignments, ts) ← listOf assignment? ts
  let conditions ← whereClause ts >>= ended
  some (.update table assignments conditions)

def delete? (ts : List Token) : Option Command := do
  let (table, ts) ← afterWord "from" ts >>= tableName?
  let conditions ← whereClause ts >>= ended
  some (.delete table conditions)

/-- An item of a select list with an alias, which names nothing that is used. -/
def selectItem? (ts : List Token) : Option (Term × List Token) := do
  let (t, ts) ← term? ts
  match name? ts with
  | some (_, ts) => some (t, ts)
  | none => some (t, ts)

def selectCore? (ts : List Token) : Option (SelectCore × List Token) := do
  let ts ← afterWord "select" ts
  let (items, ts) ← match afterSymbol '*' ts with
    | some ts => some (none, ts)
    | none => (listOf selectItem? ts).map fun (items, ts) => (some items, ts)
  match afterWord "from" ts with
  | none => some (⟨items, none, []⟩, ts)
  | some ts => do
    let (table, ts) ← tableName? ts
    let (label, ts) := match name? ts with
      | some (label, ts) => (some label, ts)
      | none => (none, ts)
    let (conditions, ts) ← whereClause ts
    some (⟨items, some (table, label), conditions⟩, ts)

def clause? (w : String) (ts : List Token) : Option (Option Term × List Token) :=
  match afterWord w ts with
  | some ts => (term? ts).map fun (t, ts) => (some t, ts)
  | none => some (none, ts)

def select? (ts : List Token) : Option Command := do
  let (core, ts) ← selectCore? ts
  match afterWord "union" ts with
  | some ts =>
    let (keepsDuplicates, ts) := match afterWord "all" ts with
      | some ts => (true, ts)
      | none => (false, ts)
    let right ← selectCore? ts >>= ended
    some (.union keepsDuplicates core right)
  | none => do
    let (limit, ts) ← clause? "limit" ts
    let (offset, ts) ← if limit.isSome then clause? "offset" ts else some (none, ts)
    if ts.isEmpty then some (.select core limit offset) else none

/-- Reads one statement of the forms that the store runs. -/
def ofText? (sql : String) : Option Command := do
  match ← Token.ofText? sql with
  | .word w :: ts =>
    match keyword w with
    | "insert" => insert? ts
    | "update" => update? ts
    | "delete" => delete? ts
    | "select" => select? (.word w :: ts)
    | _ => none
  | _ => none

end Command

end DialectSql.Store
