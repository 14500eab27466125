import DialectSql.Entity.Error
import DialectSql.Render.Translation

namespace DialectSql

inductive MutationType
  | insert
  | update
  | delete
deriving DecidableEq, Repr

namespace MutationType

def all : List MutationType := [insert, update, delete]

def name : MutationType → String
  | insert => "Insert"
  | update => "Update"
  | delete => "Delete"

def sql : MutationType → String
  | insert => "insert"
  | update => "update"
  | delete => "delete"

end MutationType

/-- Which parameter of a statement a column's value goes to. -/
structure ValueDescriptor where
  table : String
  column : String
  usage : ParameterUsage
  position : Nat
deriving DecidableEq, Repr

structure BindingValue where
  descriptor : ValueDescriptor
  value : SqlValue
deriving DecidableEq, Repr

/-- The values bound for one mutation, grouped by table. The resolver says which columns can be
bound. -/
structure ValueBindings where
  mutation : MutationType
  entity : String
  resolve? : String → String → ParameterUsage → Option ValueDescriptor
  groups : List (String × List BindingValue)

namespace ValueBindings

def empty (mutation : MutationType) (entity : String)
    (resolve? : String → String → ParameterUsage → Option ValueDescriptor) : ValueBindings :=
  ⟨mutation, entity, resolve?, []⟩

def group (b : ValueBindings) (table : String) : List BindingValue :=
  (b.groups.lookup table).getD []

def isFor (column : String) (usage : ParameterUsage) (v : BindingValue) : Bool :=
  v.descriptor.column == column && v.descriptor.usage == usage

/-- Replaces the first value of a column, or adds one at the end. -/
def putValue (d : ValueDescriptor) (column : String) (usage : ParameterUsage) (x : SqlValue) :
    List BindingValue → List BindingValue
  | [] => [⟨d, x⟩]
  | v :: vs =>
    if isFor column usage v then { v with value := x } :: vs
    else v :: putValue d column usage x vs

def putGroup (table : String) (change : List BindingValue → List BindingValue) :
    List (String × List BindingValue) → List (String × List BindingValue)
  | [] => [(table, change [])]
  | (t, vs) :: groups =>
      if t = table then (t, change vs) :: groups else (t, vs) :: putGroup table change groups

def bind (b : ValueBindings) (table column : String) (usage : ParameterUsage) (x : SqlValue) :
    Except MutationError ValueBindings :=
  match b.resolve? table column usage with
  | none => .error (.unknownParameter table column usage)
  | some d => .ok { b with groups := putGroup table (putValue d column usage x) b.groups }

def value? (b : ValueBindings) (table column : String) (usage : ParameterUsage) : Option SqlValue :=
  ((b.group table).find? (isFor column usage)).map (·.value)

def slotValue (b : ValueBindings) : BindSlot → Except MutationError SqlValue
  | .value v => .ok v
  | .column table column usage =>
    match b.value? table column usage with
    | some v => .ok v
    | none => .error (.missingBinding table column usage)

def slotValues (b : ValueBindings) (slots : List BindSlot) : Except MutationError (List SqlValue) :=
  slots.mapM b.slotValue

def release (b : ValueBindings) (table : String) : ValueBindings :=
  { b with groups := b.groups.filter fun g => g.1 != table }

def isEmpty (b : ValueBindings) : Bool := b.groups.isEmpty

def clear (b : ValueBindings) : ValueBindings := { b with groups := [] }

end ValueBindings

end DialectSql
