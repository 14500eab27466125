import DialectSql.Ast.Statement
import DialectSql.Json.Record

namespace DialectSql

open Json (constant? list? strings? variant)

namespace SqlValue

def toJson : SqlValue → Json
  | null => .string "Null"
  | bool b => variant "Bool" (.bool b)
  | int n => variant "Int" (.int n.toInt)
  | float x => variant "Float" (.float x)
  | text s => variant "Text" (.string s)
  | blob bytes => variant "Blob" (.array (bytes.map fun b => .int b.toNat))
  | timestamp t => variant "Timestamp" (.string t.documentText)

def ofJson? (l : Json.Latitude) (levels : Nat) (j : Json) : Option SqlValue :=
  match levels, j with
  | _ + 1, .object [("Bool", body)] => body.bool?.map bool
  | _ + 1, .object [("Int", body)] => body.int64?.map int
  | _ + 1, .object [("Float", body)] => body.float?.map float
  | _ + 1, .object [("Text", body)] => body.string?.map text
  | n + 1, .object [("Blob", body)] => (list? n (fun _ => Json.uint8?) body).map blob
  | _ + 1, .object [("Timestamp", body)] => (body.string? >>= Timestamp.parse?).map timestamp
  | levels, j => constant? [null] (fun _ => "Null") l levels j

end SqlValue

namespace BindSlot

def toJson : BindSlot → Json
  | value v => variant "Value" v.toJson
  | column table col usage =>
    variant "Column" <| .object
      [("table", .string table), ("column", .string col), ("usage", .string usage.name)]

def ofJson? (l : Json.Latitude) (levels : Nat) (j : Json) : Option BindSlot :=
  match levels, j with
  | n + 1, .object [("Value", body)] => (SqlValue.ofJson? l n body).map value
  | n + 2, .object [("Column", body)] => do
    let r ← body.fields? l ["table", "column", "usage"]
    some (column (← r.field "table" Json.string?) (← r.field "column" Json.string?)
      (← r.field "usage" (constant? ParameterUsage.all ParameterUsage.name l n)))
  | _, _ => none

end BindSlot

namespace DataType

def constants : List DataType :=
  [smallint, integer, bigint, double, blob, date, time, timestamp, boolean]

def constantName : DataType → String
  | smallint => "Smallint"
  | integer => "Integer"
  | bigint => "Bigint"
  | double => "Double"
  | blob => "Blob"
  | date => "Date"
  | time => "Time"
  | timestamp => "Timestamp"
  | boolean => "Boolean"
  | decimal .. => "Decimal"
  | char _ => "Char"
  | varchar _ => "Varchar"
  | custom _ => "Custom"

def toJson : DataType → Json
  | decimal precision scale =>
    variant "Decimal" <| .object
      [("precision", .ofOption (fun p => .int p.toNat) precision),
        ("scale", .ofOption (fun s => .int s.toNat) scale)]
  | char length => variant "Char" (.ofOption (fun n => .int n.toNat) length)
  | varchar length => variant "Varchar" (.ofOption (fun n => .int n.toNat) length)
  | custom name => variant "Custom" (.string name)
  | t => .string t.constantName

def ofJson? (l : Json.Latitude) (levels : Nat) (j : Json) : Option DataType :=
  match levels, j with
  | _ + 1, .object [("Char", body)] => (Json.option? Json.uint32? body).map char
  | _ + 1, .object [("Varchar", body)] => (Json.option? Json.uint32? body).map varchar
  | _ + 1, .object [("Custom", body)] => body.string?.map custom
  | _ + 2, .object [("Decimal", body)] => do
    let r ← body.fields? l ["precision", "scale"]
    some (decimal (← r.optional "precision" Json.uint16?) (← r.optional "scale" Json.uint16?))
  | levels, j => constant? constants constantName l levels j

end DataType

namespace FrameBound

def constants : List FrameBound := [unboundedPreceding, currentRow, unboundedFollowing]

def constantName : FrameBound → String
  | unboundedPreceding => "UnboundedPreceding"
  | preceding _ => "Preceding"
  | currentRow => "CurrentRow"
  | following _ => "Following"
  | unboundedFollowing => "UnboundedFollowing"

def toJson : FrameBound → Json
  | preceding n => variant "Preceding" (.int n.toNat)
  | following n => variant "Following" (.int n.toNat)
  | b => .string b.constantName

def ofJson? (l : Json.Latitude) (levels : Nat) (j : Json) : Option FrameBound :=
  match levels, j with
  | _ + 1, .object [("Preceding", body)] => body.uint64?.map preceding
  | _ + 1, .object [("Following", body)] => body.uint64?.map following
  | levels, j => constant? constants constantName l levels j

end FrameBound

namespace WindowFrame

def toJson (f : WindowFrame) : Json :=
  .object [("unit", .string f.unit.name), ("start", f.start.toJson),
    ("end", .ofOption FrameBound.toJson f.stop)]

def ofJson? (l : Json.Latitude) : Nat → Json → Option WindowFrame
  | 0, _ => none
  | n + 1, j => do
    let r ← j.record? ["unit", "start", "end"]
    some ⟨← r.field "unit" (constant? FrameUnit.all FrameUnit.name l n),
      ← r.field "start" (FrameBound.ofJson? l n), ← r.optional "end" (FrameBound.ofJson? l n)⟩

end WindowFrame

namespace NamedTable

def toJson (t : NamedTable) : Json :=
  .object [("schema", .ofOption .string t.schema), ("name", .string t.name)]

def ofJson? (_ : Json.Latitude) : Nat → Json → Option NamedTable
  | 0, _ => none
  | _ + 1, j => do
    let r ← j.record? ["schema", "name"]
    some ⟨← r.optional "schema" Json.string?, ← r.field "name" Json.string?⟩

end NamedTable

mutual

def Expr.toJson : Expr → Json
  | .column qualifier name =>
    variant "Column" <| .object [("qualifier", .ofOption .string qualifier), ("name", .string name)]
  | .literal v => variant "Literal" v.toJson
  | .parameter slot => variant "Parameter" slot.toJson
  | .tuple es => variant "Tuple" (.array (exprsToJson es))
  | .summarization kind groupings =>
    variant "Summarization" <| .object
      [("kind", .string kind.name), ("groupings", .array (exprsToJson groupings))]
  | .binary left op right =>
    variant "Binary" <| .object [("left", left.toJson), ("op", .string op.name),
      ("right", right.toJson)]
  | .negate e => variant "Unary" <| .object [("op", .string "Neg"), ("operand", e.toJson)]
  | .function name args distinct =>
    variant "Function" <| .object
      [("name", .string name), ("args", .array (exprsToJson args)), ("distinct", .bool distinct)]
  | .case branches otherwise =>
    variant "Case" <| .object
      [("when_clauses", .array (whenClausesToJson branches)),
        ("else_clause", optionalExprToJson otherwise)]
  | .cast e type => variant "Cast" <| .object [("expr", e.toJson), ("data_type", type.toJson)]
  | .subquery q => variant "Subquery" q.toJson
  | .quantified quantifier q =>
    variant "Quantified" <| .object [("quantifier", .string quantifier.name), ("query", q.toJson)]
  | .windowed function partitionBy orderBy frame =>
    variant "Over" <| .object
      [("function", function.toJson), ("partition_by", .array (exprsToJson partitionBy)),
        ("order_by", .array (sortKeysToJson orderBy)),
        ("frame", .ofOption WindowFrame.toJson frame)]
  | .star qualifier => variant "Star" <| .object [("qualifier", .ofOption .string qualifier)]

def exprsToJson : List Expr → List Json
  | [] => []
  | e :: es => e.toJson :: exprsToJson es

def optionalExprToJson : Option Expr → Json
  | none => .null
  | some e => e.toJson

def whenClausesToJson : List WhenClause → List Json
  | [] => []
  | ⟨condition, result⟩ :: bs => .array [condition.toJson, result.toJson] :: whenClausesToJson bs

def sortKeysToJson : List SortKey → List Json
  | [] => []
  | k :: ks => k.toJson :: sortKeysToJson ks

def SortKey.toJson : SortKey → Json
  | ⟨e, direction, nulls⟩ =>
    .object [("expr", e.toJson), ("direction", .string direction.name),
      ("nulls", .ofOption (fun n => .string n.name) nulls)]

def Predicate.toJson : Predicate → Json
  | .comparison lhs op rhs =>
    variant "Comparison" <| .object
      [("lhs", lhs.toJson), ("operator", .string op.name), ("rhs", rhs.toJson)]
  | .junction nature members =>
    variant "Junction" <| .object
      [("nature", .string nature.name), ("predicates", .array (predicatesToJson members))]
  | .negated p => variant "Negated" p.toJson
  | .nullCheck e negated =>
      variant "NullCheck" <| .object [("expr", e.toJson), ("negated", .bool negated)]
  | .inList e list negated =>
    variant "InList" <| .object
      [("expr", e.toJson), ("list", .array (exprsToJson list)), ("negated", .bool negated)]
  | .inSubquery e q negated =>
    variant "InSubquery" <|
      .object [("expr", e.toJson), ("query", q.toJson), ("negated", .bool negated)]
  | .exists q negated =>
      variant "Exists" <| .object [("query", q.toJson), ("negated", .bool negated)]
  | .between e low high negated =>
    variant "Between" <| .object
      [("expr", e.toJson), ("low", low.toJson), ("high", high.toJson), ("negated", .bool negated)]
  | .like e pattern escape negated =>
    variant "Like" <| .object
      [("expr", e.toJson), ("pattern", pattern.toJson),
        ("escape", .ofOption (fun c => .string c.toString) escape), ("negated", .bool negated)]
  | .boolean e => variant "BooleanExpression" e.toJson

def predicatesToJson : List Predicate → List Json
  | [] => []
  | p :: ps => p.toJson :: predicatesToJson ps

def optionalPredicateToJson : Option Predicate → Json
  | none => .null
  | some p => p.toJson

def selectionsToJson : List Selection → List Json
  | [] => []
  | s :: ss => s.toJson :: selectionsToJson ss

def Selection.toJson : Selection → Json
  | ⟨e, label⟩ => .object [("expr", e.toJson), ("alias", .ofOption .string label)]

def TableReference.toJson : TableReference → Json
  | .named t => variant "Named" t.toJson
  | .derived q columns =>
    variant "Derived" <| .object [("query", q.toJson), ("column_names", .strings columns)]

def TableGroup.toJson : TableGroup → Json
  | ⟨reference, label, joins⟩ =>
    .object [("reference", reference.toJson), ("alias", .ofOption .string label),
      ("joins", .array (joinsToJson joins))]

def tableGroupsToJson : List TableGroup → List Json
  | [] => []
  | g :: gs => g.toJson :: tableGroupsToJson gs

def TableJoin.toJson : TableJoin → Json
  | ⟨type, joined, predicate, lateral⟩ =>
    .object [("join_type", .string type.name), ("joined_group", joined.toJson),
      ("predicate", optionalPredicateToJson predicate), ("lateral", .bool lateral)]

def joinsToJson : List TableJoin → List Json
  | [] => []
  | j :: js => j.toJson :: joinsToJson js

def QuerySpec.toJson : QuerySpec → Json
  | ⟨distinct, selections, roots, restriction, groupBy, having, orderBy, offset, fetch, kind⟩ =>
    .object
      [("select_clause", .object
          [("distinct", .bool distinct), ("selections", .array (selectionsToJson selections))]),
        ("from_clause", .object [("roots", .array (tableGroupsToJson roots))]),
        ("where_clause", optionalPredicateToJson restriction),
        ("group_by", .array (exprsToJson groupBy)),
        ("having", optionalPredicateToJson having),
        ("sort_specifications", .array (sortKeysToJson orderBy)),
        ("offset", optionalExprToJson offset),
        ("fetch", optionalExprToJson fetch),
        ("fetch_kind", .string kind.name)]

def QueryGroup.toJson : QueryGroup → Json
  | ⟨operator, members, orderBy, offset, fetch, kind⟩ =>
    .object
      [("set_operator", .string operator.name),
        ("parts", .array (queriesToJson members)),
        ("sort_specifications", .array (sortKeysToJson orderBy)),
        ("offset", optionalExprToJson offset),
        ("fetch", optionalExprToJson fetch),
        ("fetch_kind", .string kind.name)]

def Query.toJson : Query → Json
  | .spec s => variant "Spec" s.toJson
  | .group g => variant "Group" g.toJson

def queriesToJson : List Query → List Json
  | [] => []
  | q :: qs => q.toJson :: queriesToJson qs

end

mutual

def Expr.ofJson? (l : Json.Latitude) : Nat → Json → Option Expr
  | n + 1, .object [(tag, body)] =>
    match tag, n with
    | "Literal", n => (SqlValue.ofJson? l n body).map .literal
    | "Parameter", n => (BindSlot.ofJson? l n body).map .parameter
    | "Subquery", n => (Query.ofJson? l n body).map .subquery
    | "Tuple", m + 1 => (list? (m + 1) (fun _ => Expr.ofJson? l m) body).map .tuple
    | "Column", _ + 1 => do
      let r ← body.fields? l ["qualifier", "name"]
      some (.column (← r.optional "qualifier" Json.string?) (← r.field "name" Json.string?))
    | "Summarization", m + 1 => do
      let r ← body.fields? l ["kind", "groupings"]
      some (.summarization (← r.field "kind"
        (constant? SummarizationKind.all SummarizationKind.name l m))
        (← r.field "groupings" (exprsOfJson? l m)))
    | "Binary", m + 1 => do
      let r ← body.fields? l ["left", "op", "right"]
      some (.binary (← r.field "left" (Expr.ofJson? l m))
        (← r.field "op" (constant? BinaryOp.all BinaryOp.name l m))
        (← r.field "right" (Expr.ofJson? l m)))
    | "Unary", m + 1 => do
      let r ← body.fields? l ["op", "operand"]
      let _ ← r.field "op" (constant? [()] (fun _ => "Neg") l m)
      some (.negate (← r.field "operand" (Expr.ofJson? l m)))
    | "Function", m + 1 => do
      let r ← body.record? ["name", "args", "distinct"]
      some (.function (← r.field "name" Json.string?) (← r.field "args" (exprsOfJson? l m))
        (← r.field "distinct" Json.bool?))
    | "Case", m + 1 => do
      let r ← body.fields? l ["when_clauses", "else_clause"]
      some (.case (← r.field "when_clauses" (whenClausesOfJson? l m))
        (← r.optional "else_clause" (Expr.ofJson? l m)))
    | "Cast", m + 1 => do
      let r ← body.fields? l ["expr", "data_type"]
      some (.cast (← r.field "expr" (Expr.ofJson? l m))
        (← r.field "data_type" (DataType.ofJson? l m)))
    | "Quantified", m + 1 => do
      let r ← body.fields? l ["quantifier", "query"]
      some (.quantified (← r.field "quantifier" (constant? Quantifier.values Quantifier.name l m))
        (← r.field "query" (Query.ofJson? l m)))
    | "Over", m + 1 => do
      let r ← body.record? ["function", "partition_by", "order_by", "frame"]
      some (.windowed (← r.field "function" (Expr.ofJson? l m))
        (← r.field "partition_by" (exprsOfJson? l m))
        (← r.field "order_by" (sortKeysOfJson? l m))
        (← r.optional "frame" (WindowFrame.ofJson? l m)))
    | "Star", _ + 1 => do
      let r ← body.fields? l ["qualifier"]
      some (.star (← r.optional "qualifier" Json.string?))
    | _, _ => none
  | _, _ => none

def exprsOfJson? (l : Json.Latitude) : Nat → Json → Option (List Expr)
  | n + 1, .array items => items.mapM (Expr.ofJson? l n)
  | _, _ => none

def whenClauseOfJson? (l : Json.Latitude) : Nat → Json → Option WhenClause
  | n + 1, .array [condition, result] => do
    some ⟨← Predicate.ofJson? l n condition, ← Expr.ofJson? l n result⟩
  | _, _ => none

def whenClausesOfJson? (l : Json.Latitude) : Nat → Json → Option (List WhenClause)
  | n + 1, .array items => items.mapM (whenClauseOfJson? l n)
  | _, _ => none

def SortKey.ofJson? (l : Json.Latitude) : Nat → Json → Option SortKey
  | 0, _ => none
  | n + 1, j => do
    let r ← j.record? ["expr", "direction", "nulls"]
    some ⟨← r.field "expr" (Expr.ofJson? l n),
      ← r.field "direction" (constant? OrderDirection.all OrderDirection.name l n),
      ← r.optional "nulls" (constant? NullOrdering.all NullOrdering.name l n)⟩

def sortKeysOfJson? (l : Json.Latitude) : Nat → Json → Option (List SortKey)
  | n + 1, .array items => items.mapM (SortKey.ofJson? l n)
  | _, _ => none

def Predicate.ofJson? (l : Json.Latitude) : Nat → Json → Option Predicate
  | n + 1, .object [(tag, body)] =>
    match tag, n with
    | "Negated", n => (Predicate.ofJson? l n body).map .negated
    | "BooleanExpression", n => (Expr.ofJson? l n body).map .boolean
    | "Comparison", m + 1 => do
      let r ← body.fields? l ["lhs", "operator", "rhs"]
      some (.comparison (← r.field "lhs" (Expr.ofJson? l m))
        (← r.field "operator" (constant? ComparisonOperator.all ComparisonOperator.name l m))
        (← r.field "rhs" (Expr.ofJson? l m)))
    | "Junction", m + 1 => do
      let r ← body.fields? l ["nature", "predicates"]
      some (.junction (← r.field "nature" (constant? JunctionNature.all JunctionNature.name l m))
        (← r.field "predicates" (predicatesOfJson? l m)))
    | "NullCheck", m + 1 => do
      let r ← body.fields? l ["expr", "negated"]
      some (.nullCheck (← r.field "expr" (Expr.ofJson? l m)) (← r.field "negated" Json.bool?))
    | "InList", m + 1 => do
      let r ← body.fields? l ["expr", "list", "negated"]
      some (.inList (← r.field "expr" (Expr.ofJson? l m)) (← r.field "list" (exprsOfJson? l m))
        (← r.field "negated" Json.bool?))
    | "InSubquery", m + 1 => do
      let r ← body.fields? l ["expr", "query", "negated"]
      some (.inSubquery (← r.field "expr" (Expr.ofJson? l m))
        (← r.field "query" (Query.ofJson? l m))
        (← r.field "negated" Json.bool?))
    | "Exists", m + 1 => do
      let r ← body.fields? l ["query", "negated"]
      some (.exists (← r.field "query" (Query.ofJson? l m)) (← r.field "negated" Json.bool?))
    | "Between", m + 1 => do
      let r ← body.fields? l ["expr", "low", "high", "negated"]
      some (.between (← r.field "expr" (Expr.ofJson? l m)) (← r.field "low" (Expr.ofJson? l m))
        (← r.field "high" (Expr.ofJson? l m)) (← r.field "negated" Json.bool?))
    | "Like", m + 1 => do
      let r ← body.fields? l ["expr", "pattern", "escape", "negated"]
      some (.like (← r.field "expr" (Expr.ofJson? l m)) (← r.field "pattern" (Expr.ofJson? l m))
        (← r.optional "escape" Json.char?) (← r.field "negated" Json.bool?))
    | _, _ => none
  | _, _ => none

def predicatesOfJson? (l : Json.Latitude) : Nat → Json → Option (List Predicate)
  | n + 1, .array items => items.mapM (Predicate.ofJson? l n)
  | _, _ => none

def Selection.ofJson? (l : Json.Latitude) : Nat → Json → Option Selection
  | 0, _ => none
  | n + 1, j => do
    let r ← j.record? ["expr", "alias"]
    some ⟨← r.field "expr" (Expr.ofJson? l n), ← r.optional "alias" Json.string?⟩

def selectionsOfJson? (l : Json.Latitude) : Nat → Json → Option (List Selection)
  | n + 1, .array items => items.mapM (Selection.ofJson? l n)
  | _, _ => none

def selectClauseOfJson? (l : Json.Latitude) : Nat → Json → Option (Bool × List Selection)
  | 0, _ => none
  | n + 1, j => do
    let r ← j.record? ["distinct", "selections"]
    some (← r.field "distinct" Json.bool?, ← r.field "selections" (selectionsOfJson? l n))

def TableReference.ofJson? (l : Json.Latitude) : Nat → Json → Option TableReference
  | n + 1, .object [(tag, body)] =>
    match tag, n with
    | "Named", n => (NamedTable.ofJson? l n body).map .named
    | "Derived", m + 1 => do
      let r ← body.fields? l ["query", "column_names"]
      some (.derived (← r.field "query" (Query.ofJson? l m))
        (← r.field "column_names" (strings? m)))
    | _, _ => none
  | _, _ => none

def TableGroup.ofJson? (l : Json.Latitude) : Nat → Json → Option TableGroup
  | 0, _ => none
  | n + 1, j => do
    let r ← j.record? ["reference", "alias", "joins"]
    some ⟨← r.field "reference" (TableReference.ofJson? l n), ← r.optional "alias" Json.string?,
      ← r.field "joins" (joinsOfJson? l n)⟩

def tableGroupsOfJson? (l : Json.Latitude) : Nat → Json → Option (List TableGroup)
  | n + 1, .array items => items.mapM (TableGroup.ofJson? l n)
  | _, _ => none

def fromClauseOfJson? (l : Json.Latitude) : Nat → Json → Option (List TableGroup)
  | 0, _ => none
  | n + 1, j => do
    let r ← j.record? ["roots"]
    r.field "roots" (tableGroupsOfJson? l n)

def TableJoin.ofJson? (l : Json.Latitude) : Nat → Json → Option TableJoin
  | 0, _ => none
  | n + 1, j => do
    let r ← j.record? ["join_type", "joined_group", "predicate", "lateral"]
    some ⟨← r.field "join_type" (constant? JoinType.all JoinType.name l n),
      ← r.field "joined_group" (TableGroup.ofJson? l n),
      ← r.optional "predicate" (Predicate.ofJson? l n), ← r.field "lateral" Json.bool?⟩

def joinsOfJson? (l : Json.Latitude) : Nat → Json → Option (List TableJoin)
  | n + 1, .array items => items.mapM (TableJoin.ofJson? l n)
  | _, _ => none

def QuerySpec.ofJson? (l : Json.Latitude) : Nat → Json → Option QuerySpec
  | 0, _ => none
  | n + 1, j => do
    let r ← j.record? ["select_clause", "from_clause", "where_clause", "group_by", "having",
      "sort_specifications", "offset", "fetch", "fetch_kind"]
    let (distinct, selections) ← r.field "select_clause" (selectClauseOfJson? l n)
    some ⟨distinct, selections, ← r.field "from_clause" (fromClauseOfJson? l n),
      ← r.optional "where_clause" (Predicate.ofJson? l n),
      ← r.field "group_by" (exprsOfJson? l n),
      ← r.optional "having" (Predicate.ofJson? l n),
      ← r.field "sort_specifications" (sortKeysOfJson? l n),
      ← r.optional "offset" (Expr.ofJson? l n), ← r.optional "fetch" (Expr.ofJson? l n),
      ← r.field "fetch_kind" (constant? FetchKind.all FetchKind.name l n)⟩

def QueryGroup.ofJson? (l : Json.Latitude) : Nat → Json → Option QueryGroup
  | 0, _ => none
  | n + 1, j => do
    let r ← j.record? ["set_operator", "parts", "sort_specifications", "offset", "fetch",
      "fetch_kind"]
    some ⟨← r.field "set_operator" (constant? SetOperator.all SetOperator.name l n),
      ← r.field "parts" (queriesOfJson? l n),
      ← r.field "sort_specifications" (sortKeysOfJson? l n),
      ← r.optional "offset" (Expr.ofJson? l n),
      ← r.optional "fetch" (Expr.ofJson? l n),
      ← r.field "fetch_kind" (constant? FetchKind.all FetchKind.name l n)⟩

def Query.ofJson? (l : Json.Latitude) : Nat → Json → Option Query
  | n + 1, .object [(tag, body)] =>
    match tag with
    | "Spec" => (QuerySpec.ofJson? l n body).map .spec
    | "Group" => (QueryGroup.ofJson? l n body).map .group
    | _ => none
  | _, _ => none

def queriesOfJson? (l : Json.Latitude) : Nat → Json → Option (List Query)
  | n + 1, .array items => items.mapM (Query.ofJson? l n)
  | _, _ => none

end

namespace SearchItem

def toJson (i : SearchItem) : Json :=
  .object [("column", .string i.column), ("direction", .string i.direction.name)]

def ofJson? (l : Json.Latitude) : Nat → Json → Option SearchItem
  | 0, _ => none
  | n + 1, j => do
    let r ← j.record? ["column", "direction"]
    some ⟨← r.field "column" Json.string?,
      ← r.field "direction" (constant? OrderDirection.all OrderDirection.name l n)⟩

end SearchItem

namespace SearchClause

def toJson (c : SearchClause) : Json :=
  .object [("kind", .string c.kind.name), ("by", .array (c.items.map SearchItem.toJson)),
    ("sequence_column", .string c.sequenceColumn)]

def ofJson? (l : Json.Latitude) : Nat → Json → Option SearchClause
  | 0, _ => none
  | n + 1, j => do
    let r ← j.record? ["kind", "by", "sequence_column"]
    some ⟨← r.field "kind" (constant? SearchKind.all SearchKind.name l n),
      ← r.field "by" (list? n (SearchItem.ofJson? l)), ← r.field "sequence_column" Json.string?⟩

end SearchClause

namespace CycleClause

def toJson (c : CycleClause) : Json :=
  .object [("columns", .strings c.columns), ("mark_column", .string c.markColumn),
    ("path_column", .ofOption .string c.pathColumn), ("cycle_value", c.cycleValue.toJson),
    ("non_cycle_value", c.nonCycleValue.toJson)]

def ofJson? (l : Json.Latitude) : Nat → Json → Option CycleClause
  | 0, _ => none
  | n + 1, j => do
    let r ← j.record? ["columns", "mark_column", "path_column", "cycle_value", "non_cycle_value"]
    some ⟨← r.field "columns" (strings? n), ← r.field "mark_column" Json.string?,
      ← r.optional "path_column" Json.string?, ← r.field "cycle_value" (SqlValue.ofJson? l n),
      ← r.field "non_cycle_value" (SqlValue.ofJson? l n)⟩

end CycleClause

namespace Cte

def toJson (c : Cte) : Json :=
  .object
    [("name", .string c.name), ("column_names", .strings c.columns), ("query", c.query.toJson),
      ("recursive", .bool c.recursive), ("search", .ofOption SearchClause.toJson c.search),
      ("cycle", .ofOption CycleClause.toJson c.cycle),
      ("materialization", .string c.materialization.name)]

def ofJson? (l : Json.Latitude) : Nat → Json → Option Cte
  | 0, _ => none
  | n + 1, j => do
    let r ← j.record? ["name", "column_names", "query", "recursive", "search", "cycle",
      "materialization"]
    some ⟨← r.field "name" Json.string?, ← r.field "column_names" (strings? n),
      ← r.field "query" (Query.ofJson? l n), ← r.field "recursive" Json.bool?,
      ← r.optional "search" (SearchClause.ofJson? l n),
      ← r.optional "cycle" (CycleClause.ofJson? l n),
      ← r.field "materialization" (constant? CteMaterialization.all CteMaterialization.name l n)⟩

end Cte

namespace SelectStatement

def toJson (s : SelectStatement) : Json :=
  .object [("ctes", .array (s.ctes.map Cte.toJson)), ("query_part", s.query.toJson)]

def ofJson? (l : Json.Latitude) : Nat → Json → Option SelectStatement
  | 0, _ => none
  | n + 1, j => do
    let r ← j.record? ["ctes", "query_part"]
    some ⟨← r.field "ctes" (list? n (Cte.ofJson? l)), ← r.field "query_part" (Query.ofJson? l n)⟩

end SelectStatement

namespace InsertSource

def toJson : InsertSource → Json
  | values rows => variant "Values" (.array (rows.map fun row => .array (exprsToJson row)))
  | query s => variant "Query" s.toJson
  | defaultValues => .string "DefaultValues"

def ofJson? (l : Json.Latitude) (levels : Nat) (j : Json) : Option InsertSource :=
  match levels, j with
  | n + 1, .object [("Values", body)] => (list? n (exprsOfJson? l) body).map values
  | n + 1, .object [("Query", body)] => (SelectStatement.ofJson? l n body).map query
  | levels, j => constant? [defaultValues] (fun _ => "DefaultValues") l levels j

end InsertSource

namespace InsertStatement

def toJson (s : InsertStatement) : Json :=
  .object [("target", s.target.toJson), ("columns", .strings s.columns),
    ("source", s.source.toJson)]

def ofJson? (l : Json.Latitude) : Nat → Json → Option InsertStatement
  | 0, _ => none
  | n + 1, j => do
    let r ← j.record? ["target", "columns", "source"]
    some ⟨← r.field "target" (NamedTable.ofJson? l n), ← r.field "columns" (strings? n),
      ← r.field "source" (InsertSource.ofJson? l n)⟩

end InsertStatement

namespace Assignment

def toJson (a : Assignment) : Json :=
  .object [("column", .string a.column), ("value", a.value.toJson)]

def ofJson? (l : Json.Latitude) : Nat → Json → Option Assignment
  | 0, _ => none
  | n + 1, j => do
    let r ← j.record? ["column", "value"]
    some ⟨← r.field "column" Json.string?, ← r.field "value" (Expr.ofJson? l n)⟩

end Assignment

namespace UpdateStatement

def toJson (s : UpdateStatement) : Json :=
  .object [("target", s.target.toJson),
    ("assignments", .array (s.assignments.map Assignment.toJson)),
    ("restriction", optionalPredicateToJson s.restriction)]

def ofJson? (l : Json.Latitude) : Nat → Json → Option UpdateStatement
  | 0, _ => none
  | n + 1, j => do
    let r ← j.record? ["target", "assignments", "restriction"]
    some ⟨← r.field "target" (NamedTable.ofJson? l n),
      ← r.field "assignments" (list? n (Assignment.ofJson? l)),
      ← r.optional "restriction" (Predicate.ofJson? l n)⟩

end UpdateStatement

namespace DeleteStatement

def toJson (s : DeleteStatement) : Json :=
  .object [("target", s.target.toJson), ("restriction", optionalPredicateToJson s.restriction)]

def ofJson? (l : Json.Latitude) : Nat → Json → Option DeleteStatement
  | 0, _ => none
  | n + 1, j => do
    let r ← j.record? ["target", "restriction"]
    some ⟨← r.field "target" (NamedTable.ofJson? l n),
      ← r.optional "restriction" (Predicate.ofJson? l n)⟩

end DeleteStatement

namespace Statement

def toJson : Statement → Json
  | select s => variant "Select" s.toJson
  | insert s => variant "Insert" s.toJson
  | update s => variant "Update" s.toJson
  | delete s => variant "Delete" s.toJson

def ofJson? (l : Json.Latitude) (levels : Nat) (j : Json) : Option Statement :=
  match levels, j with
  | n + 1, .object [(tag, body)] =>
    match tag with
    | "Select" => (SelectStatement.ofJson? l n body).map select
    | "Insert" => (InsertStatement.ofJson? l n body).map insert
    | "Update" => (UpdateStatement.ofJson? l n body).map update
    | "Delete" => (DeleteStatement.ofJson? l n body).map delete
    | _ => none
  | _, _ => none

end Statement

end DialectSql
