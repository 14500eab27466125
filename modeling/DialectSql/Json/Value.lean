import DialectSql.Number.Binary64

namespace DialectSql

/-- A document. An object keeps its members in order, with any duplicates. What is written by the
rules but stands for nothing is void: a text with half a surrogate pair, a number too large to be
finite, an object with such a text as a name. -/
inductive Json
  | null
  | bool (value : Bool)
  | int (value : Int)
  | float (value : Binary64)
  | string (value : String)
  | array (items : List Json)
  | object (members : List (String × Json))
  | void
deriving Inhabited

namespace Json

mutual
def depth : Json → Nat
  | .array items => itemsDepth items + 1
  | .object members => membersDepth members + 1
  | _ => 0
def itemsDepth : List Json → Nat
  | [] => 0
  | j :: js => max j.depth (itemsDepth js)
def membersDepth : List (String × Json) → Nat
  | [] => 0
  | (_, j) :: ms => max j.depth (membersDepth ms)
end

mutual
def lastMembers : Json → Json
  | .array items => .array (lastMembersItems items)
  | .object members => .object (lastMembersObject members)
  | j => j
def lastMembersItems : List Json → List Json
  | [] => []
  | j :: js => j.lastMembers :: lastMembersItems js
def lastMembersObject : List (String × Json) → List (String × Json)
  | [] => []
  | (k, j) :: ms =>
    let rest := lastMembersObject ms
    if ms.any (fun m => m.1 == k) then rest else (k, j.lastMembers) :: rest
end

mutual
def hasVoid : Json → Bool
  | .array items => itemsHaveVoid items
  | .object members => membersHaveVoid members
  | .void => true
  | _ => false
def itemsHaveVoid : List Json → Bool
  | [] => false
  | j :: js => j.hasVoid || itemsHaveVoid js
def membersHaveVoid : List (String × Json) → Bool
  | [] => false
  | (_, j) :: ms => j.hasVoid || membersHaveVoid ms
end

def get? (j : Json) (name : String) : Option Json :=
  match j with
  | .object members => members.lookup name
  | _ => none

def ofOption {α : Type} (f : α → Json) : Option α → Json
  | none => .null
  | some a => f a

def strings (xs : List String) : Json := .array (xs.map .string)

def ofNat (n : Nat) : Json := .int n

end Json

end DialectSql
