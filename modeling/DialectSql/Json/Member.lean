import DialectSql.Json.Record

namespace DialectSql.Json

/-- How a value is read from a document: with a latitude, down to a number of levels. -/
abbrev Reading (α : Type) := Latitude → Nat → Json → Option α

/-- A reader of documents without brackets, at any level. -/
def leaf {α : Type} (read : Json → Option α) : Reading α := fun _ _ => read

def listOf {α : Type} (read : Reading α) : Reading (List α) := fun l n j => list? n (read l) j

/-- Reads a document with as many levels as it has. -/
def readWith {α : Type} (l : Latitude) (read : Reading α) (j : Json) : Option α := read l j.depth j

def readAs {α : Type} (read : Reading α) (j : Json) : Option α := j.readWith .strict read

/-- A member of an object; one that is missing is null. -/
def member (j : Json) (name : String) : Json := (j.get? name).getD .null

def memberAs {α : Type} (j : Json) (name : String) (read : Reading α) : Option α :=
  (j.member name).readAs read

def isOmitted (j : Json) (name : String) : Bool :=
  match j.member name with
  | .null => true
  | _ => false

/-- A member that may be missing or null. -/
def optionalMember {α : Type} (j : Json) (name : String) (read : Reading α) : Option (Option α) :=
  if j.isOmitted name then some none else (j.memberAs name read).map some

def textMember (j : Json) (name : String) : Option String := j.memberAs name (leaf string?)

end DialectSql.Json
