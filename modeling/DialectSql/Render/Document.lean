import DialectSql.Ast.Document
import DialectSql.Render.Translation

namespace DialectSql

open Json (constant? list? strings? variant)

namespace LockTimeout

def constants : List LockTimeout := [wait, noWait, skipLocked]

def constantName : LockTimeout → String
  | wait => "Wait"
  | noWait => "NoWait"
  | skipLocked => "SkipLocked"
  | seconds _ => "Seconds"

def toJson : LockTimeout → Json
  | seconds n => variant "Seconds" (.int n.toNat)
  | t => .string t.constantName

def ofJson? (l : Json.Latitude) (levels : Nat) (j : Json) : Option LockTimeout :=
  match levels, j with
  | _ + 1, .object [("Seconds", body)] => body.uint32?.map seconds
  | levels, j => constant? constants constantName l levels j

end LockTimeout

namespace LockOptions

def toJson (l : LockOptions) : Json :=
  .object [("mode", .string l.mode.name), ("timeout", l.timeout.toJson),
    ("aliases", .strings l.aliases), ("follow_on_locking", .ofOption .bool l.followOnLocking)]

def ofJson? (l : Json.Latitude) : Nat → Json → Option LockOptions
  | 0, _ => none
  | n + 1, j => do
    let r ← j.record? ["mode", "timeout", "aliases", "follow_on_locking"]
    some ⟨← r.field "mode" (constant? LockMode.all LockMode.name l n),
      ← r.field "timeout" (LockTimeout.ofJson? l n), ← r.field "aliases" (strings? n),
      ← r.optional "follow_on_locking" Json.bool?⟩

end LockOptions

namespace ForUpdateClause

def toJson (c : ForUpdateClause) : Json :=
  .object [("mode", .string c.mode.name), ("timeout", c.timeout.toJson),
    ("aliases", .strings c.aliases)]

def ofJson? (l : Json.Latitude) : Nat → Json → Option ForUpdateClause
  | 0, _ => none
  | n + 1, j => do
    let r ← j.record? ["mode", "timeout", "aliases"]
    some ⟨← r.field "mode" (constant? LockMode.all LockMode.name l n),
      ← r.field "timeout" (LockTimeout.ofJson? l n), ← r.field "aliases" (strings? n)⟩

end ForUpdateClause

namespace CapabilityGap

def toJson : CapabilityGap → Json
  | cycleClause cte => variant "CycleClause" (.object [("cte", .string cte)])
  | rowLocking => .string "RowLocking"

def ofJson? (l : Json.Latitude) (levels : Nat) (j : Json) : Option CapabilityGap :=
  match levels, j with
  | _ + 2, .object [("CycleClause", body)] => do
    let r ← body.fields? l ["cte"]
    some (cycleClause (← r.field "cte" Json.string?))
  | levels, j => constant? [rowLocking] (fun _ => "RowLocking") l levels j

end CapabilityGap

namespace TranslatedSql

def fields (t : TranslatedSql) : List (String × Json) :=
  [("sql", .string t.sql), ("parameters", .array (t.parameters.map BindSlot.toJson)),
    ("follow_on_lock", .ofOption ForUpdateClause.toJson t.followOnLock),
    ("capability_gaps", .array (t.gaps.map CapabilityGap.toJson)),
    ("affected_tables", .strings t.affectedTables)]

def toJson (t : TranslatedSql) : Json := .object t.fields

def ofJson? (l : Json.Latitude) : Nat → Json → Option TranslatedSql
  | 0, _ => none
  | n + 1, j => do
    let r ← j.record? ["sql", "parameters", "follow_on_lock", "capability_gaps", "affected_tables"]
    some
      { sql := ← r.field "sql" Json.string?
        parameters := ← r.field "parameters" (list? n (BindSlot.ofJson? l))
        followOnLock := ← r.optional "follow_on_lock" (ForUpdateClause.ofJson? l n)
        gaps := ← r.field "capability_gaps" (list? n (CapabilityGap.ofJson? l))
        affectedTables := Translation.sortNames (← r.field "affected_tables" (strings? n)) }

end TranslatedSql

end DialectSql
