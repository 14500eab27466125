import DialectSql.Dialect.Document
import DialectSql.Json.Member

namespace DialectSql

namespace Strategies

def setLocking (s : Strategies) : String → Option Strategies
  | "standard" => some { s with locking := .standard }
  | "timesten" => some { s with locking := .unlessSetOperation }
  | _ => none

def setJoin (s : Strategies) : String → Option Strategies
  | "standard" => some { s with join := .standard }
  | "timesten" => some { s with join := .commaForCross }
  | _ => none

def setSearch (s : Strategies) : String → Option Strategies
  | "standard" => some { s with search := .standard }
  | "skip" => some { s with search := .skip }
  | _ => none

def setCycle (s : Strategies) : String → Option Strategies
  | "standard" => some { s with cycle := .standard }
  | "gap" => some { s with cycle := .gap }
  | _ => none

def setSelectList (s : Strategies) : String → Option Strategies
  | "standard" => some { s with selectList := .standard }
  | "rows_to" => some { s with selectList := .rowsTo }
  | _ => none

def setUpperBound (s : Strategies) : String → Option Strategies
  | "standard" => some { s with upperBound := .standard }
  | "single_parameter" => some { s with upperBound := .singleParameter }
  | _ => none

def setRowLimit (s : Strategies) : String → Option Strategies
  | "standard" => some { s with rowLimit := .standard }
  | "skip" => some { s with rowLimit := .skip }
  | _ => none

def setComparison (s : Strategies) : String → Option Strategies
  | "standard" => some { s with comparison := .standard }
  | "timesten" => some { s with comparison := .intersect }
  | "intersect" => some { s with comparison := .intersect }
  | "lexicographic" => some { s with comparison := .lexicographic }
  | _ => none

def setSelectTuple (s : Strategies) : String → Option Strategies
  | "standard" => some { s with selectTuple := .standard }
  | "emulate" => some { s with selectTuple := .emulate }
  | "lexicographic" => some { s with selectTuple := .lexicographic }
  | _ => none

def setPartition (s : Strategies) : String → Option Strategies
  | "standard" => some { s with partition := .standard }
  | "expression" => some { s with partition := .expression }
  | _ => none

/-- Replaces the choice at one point; none if the point or the choice is unknown. -/
def set? (s : Strategies) (point choice : String) : Option Strategies :=
  match point with
  | "determine_locking_strategy" => s.setLocking choice
  | "render_table_group_join" => s.setJoin choice
  | "render_search_clause" => s.setSearch choice
  | "render_cycle_clause" => s.setCycle choice
  | "visit_sql_selections" => s.setSelectList choice
  | "render_fetch_plus_offset" => s.setUpperBound choice
  | "visit_offset_fetch_clause" => s.setRowLimit choice
  | "render_comparison" => s.setComparison choice
  | "render_select_tuple_comparison" => s.setSelectTuple choice
  | "render_partition_item" => s.setPartition choice
  | _ => none

def setAll? (s : Strategies) : List (String × Json) → Option Strategies
  | [] => some s
  | (point, .string choice) :: rest => (s.set? point choice) >>= fun s => s.setAll? rest
  | _ => none

end Strategies

/-- One value over another: objects member by member, all else replaced. -/
def Json.merge (base : Json) : Json → Json
  | .object members => match base with
    | .object old => .object (mergeMembers old members)
    | _ => .object members
  | patch => patch
where
  mergeMembers (old : List (String × Json)) : List (String × Json) → List (String × Json)
    | [] => old
    | (k, j) :: rest =>
      let merged := match old.lookup k with
        | some previous => previous.merge j
        | none => j
      mergeMembers (old.filter (fun m => m.1 != k) ++ [(k, merged)]) rest

/-- A dialect asked for that is not known, or that cannot be read. -/
inductive DialectFault
  | unknown
  | invalid
deriving DecidableEq, Repr

namespace Dialect

def named (name : String) : Except DialectFault Dialect :=
  match ofName? name with
  | some d => .ok d
  | none => .error .unknown

/-- A known dialect with some capabilities and strategies replaced. -/
def configured (base : Dialect) (capabilities strategies : Option Json) : Option Dialect := do
  let capabilities ← match capabilities with
    | none => some base.capabilities
    | some .null => some base.capabilities
    | some patch =>
      let merged := base.capabilities.toJson.merge patch
      merged.readAs Capabilities.ofJson?
  let strategies ← match strategies with
    | none => some base.strategies
    | some .null => some base.strategies
    | some (.object members) => base.strategies.setAll? members
    | some _ => none
  some { base with capabilities, strategies }

/-- A dialect by name or by description; none stands for the generic one. -/
def ofJson? : Option Json → Except DialectFault Dialect
  | none => .ok generic
  | some .null => .ok generic
  | some (.string name) => named name
  | some (.object members) => do
    let base ← match members.lookup "base" with
      | none => .ok generic
      | some .null => .ok generic
      | some (.string name) => named name
      | some _ => .error .invalid
    match base.configured (members.lookup "capabilities") (members.lookup "strategies") with
    | some d => .ok d
    | none => .error .invalid
  | some _ => .error .invalid

end Dialect

end DialectSql
