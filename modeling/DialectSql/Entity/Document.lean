import DialectSql.Ast.Document
import DialectSql.Entity.Executor
import DialectSql.Json.Member

namespace DialectSql

open Json (leaf listOf)

def ParameterUsage.ofJson? : Json.Reading ParameterUsage := Json.constant? all name

def MutationType.ofName? (s : String) : Option MutationType := all.find? (·.name == s)

namespace TableMapping

def toJson (t : TableMapping) : Json :=
  .object
    [("name", .string t.name), ("schema", .ofOption .string t.schema), ("keys", .strings t.keys),
      ("columns", .strings t.columns), ("optional", .bool t.optional)]

def ofJson? (j : Json) : Option TableMapping := do
  let r ← j.record? ["name", "schema", "keys", "columns", "optional"]
  some
    { name := ← r.field "name" Json.string?
      schema := ← r.optional "schema" Json.string?
      keys := ← r.defaulted "keys" [] (Json.readAs (listOf (leaf Json.string?)))
      columns := ← r.defaulted "columns" [] (Json.readAs (listOf (leaf Json.string?)))
      optional := ← r.defaulted "optional" false Json.bool? }

end TableMapping

def MutationTarget.ofJson? (j : Json) : Option MutationTarget := do
  let r ← j.record? ["entity", "tables"]
  some ⟨← r.field "entity" Json.string?,
    ← r.field "tables" (Json.readAs (listOf (leaf TableMapping.ofJson?)))⟩

def cellOfJson? : Json → Option (String × String × SqlValue)
  | .array [table, column, v] => do
    some (← table.string?, ← column.string?, ← v.readAs SqlValue.ofJson?)
  | _ => none

def EntityValues.ofJson? (j : Json) : Option EntityValues := do
  let r ← j.record? ["id", "state", "previous"]
  let id ← r.field "id" (Json.readAs (listOf SqlValue.ofJson?))
  let state ← r.optional "state" (Json.readAs (listOf (leaf cellOfJson?)))
  let previous ← r.optional "previous" (Json.readAs (listOf (leaf cellOfJson?)))
  let v := (state.getD []).foldl (fun v (table, column, x) => v.set table column x) (ofId id)
  some ((previous.getD []).foldl (fun v (table, column, x) => v.setPrevious table column x) v)

namespace ValueDescriptor

def toJson (d : ValueDescriptor) : Json :=
  .object
    [("table", .string d.table), ("column", .string d.column), ("usage", .string d.usage.name),
      ("position", .ofNat d.position)]

def ofList? : Json → Option ValueDescriptor
  | .array [table, column, usage, position] => do
    some ⟨← table.string?, ← column.string?, ← usage.readAs ParameterUsage.ofJson?,
      (← position.uint64?).toNat⟩
  | _ => none

end ValueDescriptor

def BindingValue.toJson (v : BindingValue) : Json :=
  .object [("descriptor", v.descriptor.toJson), ("value", v.value.toJson)]

def PreparedOperation.toJson (op : PreparedOperation) : Json :=
  .object
    [("table", .string op.table.name), ("sql", .string op.statement.sql),
      ("mutation_type", .string op.mutation.sql), ("expectation", .ofOption .ofNat op.expectation)]

def SentStatement.toJson (s : SentStatement) : Json :=
  .object [("sql", .string s.sql), ("parameters", .ofNat s.parameters)]

def Recording.toJson (r : Recording) : Json :=
  .object
    [("table", .string r.table), ("values", .array (r.values.map SqlValue.toJson)),
      ("needs_update", .bool r.needsUpdate)]

namespace Store

def Table.ofJson? (j : Json) : Option Table := do
  let r ← j.record? ["name", "columns", "unique", "rows"]
  some
    { name := ← r.field "name" Json.string?
      columns := ← r.field "columns" (Json.readAs (listOf (leaf Json.string?)))
      unique := ← r.defaulted "unique" [] (Json.readAs (listOf (leaf Json.string?)))
      rows := ← r.defaulted "rows" [] (Json.readAs (listOf (listOf SqlValue.ofJson?))) }

def Database.toJson (db : Database) : Json :=
  .object (db.map fun t =>
    (t.name, .array (t.rows.map fun row => .array (row.map SqlValue.toJson))))

end Store

end DialectSql
