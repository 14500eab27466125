import DialectSql.Json.Value
import DialectSql.Number.Nearest

namespace DialectSql

namespace Json

/-- What a reader lets pass besides the form in which documents are written. -/
structure Latitude where
  /-- The fields of a variant may be listed in order instead of named. -/
  listedFields : Bool
  /-- A constant may carry an empty object. -/
  emptyPayload : Bool
deriving DecidableEq, Repr

namespace Latitude

def strict : Latitude := ⟨false, false⟩

def listed : Latitude := ⟨true, false⟩

def full : Latitude := ⟨true, true⟩

end Latitude

abbrev Record := List (String × Json)

/-- A record is an object, or an array of all its fields in order. -/
def record? (names : List String) : Json → Option Record
  | .object members => some members
  | .array items => if items.length = names.length then some (names.zip items) else none
  | _ => none

def fields? (l : Latitude) (names : List String) (j : Json) : Option Record :=
  match j with
  | .object members => some members
  | j => if l.listedFields then j.record? names else none

namespace Record

def named (r : Record) (name : String) : List Json := (r.filter fun m => m.1 == name).map (·.2)

/-- A field that has to be there, once. -/
def field {α : Type} (r : Record) (name : String) (read : Json → Option α) : Option α :=
  match r.named name with
  | [j] => read j
  | _ => none

/-- A field that may be missing or null. -/
def optional {α : Type} (r : Record) (name : String) (read : Json → Option α) : Option (Option α) :=
  match r.named name with
  | [] => some none
  | [.null] => some none
  | [j] => (read j).map some
  | _ => none

/-- A field that may be missing. -/
def defaulted {α : Type} (r : Record) (name : String) (default : α) (read : Json → Option α) :
    Option α :=
  match r.named name with
  | [] => some default
  | [j] => read j
  | _ => none

end Record

def string? : Json → Option String
  | .string s => some s
  | _ => none

def bool? : Json → Option Bool
  | .bool b => some b
  | _ => none

/-- An integer that is not written as a float. -/
def int? : Json → Option Int
  | .int n => some n
  | _ => none

def int64? (j : Json) : Option Int64 := do
  let n ← j.int?
  if Int64.minValue.toInt ≤ n ∧ n ≤ Int64.maxValue.toInt then some (Int64.ofInt n) else none

def natBelow? (bound : Nat) (j : Json) : Option Nat := do
  let n ← j.int?
  if 0 ≤ n ∧ n < bound then some n.toNat else none

def uint8? (j : Json) : Option UInt8 := (j.natBelow? UInt8.size).map UInt8.ofNat

def uint16? (j : Json) : Option UInt16 := (j.natBelow? UInt16.size).map UInt16.ofNat

def uint32? (j : Json) : Option UInt32 := (j.natBelow? UInt32.size).map UInt32.ofNat

def uint64? (j : Json) : Option UInt64 := (j.natBelow? UInt64.size).map UInt64.ofNat

/-- An integer is accepted for a float. -/
def float? : Json → Option Binary64
  | .float x => some x
  | .int n => Binary64.ofInt n
  | _ => none

def char? : Json → Option Char
  | .string s =>
    match s.toList with
    | [c] => some c
    | _ => none
  | _ => none

def option? {α : Type} (read : Json → Option α) : Json → Option (Option α)
  | .null => some none
  | j => (read j).map some

/-- A list, one level below the brackets around it. -/
def list? {α : Type} (levels : Nat) (read : Nat → Json → Option α) (j : Json) : Option (List α) :=
  match levels, j with
  | n + 1, .array items => items.mapM (read n)
  | _, _ => none

def strings? (levels : Nat) (j : Json) : Option (List String) := list? levels (fun _ => string?) j

def isEmptyPayload (l : Latitude) : Json → Bool
  | .null => true
  | .object [] => l.emptyPayload
  | _ => false

/-- A constant: its name, or its name with an empty payload. -/
def constant? {α : Type} (values : List α) (name : α → String) (l : Latitude) (levels : Nat)
    (j : Json) : Option α :=
  match levels, j with
  | _, .string s => values.find? (name · == s)
  | _ + 1, .object [(s, payload)] =>
    if isEmptyPayload l payload then values.find? (name · == s) else none
  | _, _ => none

def variant (name : String) (payload : Json) : Json := .object [(name, payload)]

end Json

end DialectSql
