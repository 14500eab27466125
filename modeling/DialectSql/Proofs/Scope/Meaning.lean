import DialectSql.Proofs.Condition.Reading
import DialectSql.Proofs.Scope.Size

namespace DialectSql

/-- The rows of the tables of one query, by the places of the tables. -/
abbrev Cells (α : Type*) := Nat → String → Option α

/-- The queries around an expression with one row of each, the innermost one first. -/
abbrev Env (α : Type*) := List (NameScope × Cells α)

namespace Env

variable {α : Type*}

def scopes (env : Env α) : List NameScope := env.map (·.1)

/-- The row of the table that a name stands for. -/
def row? (env : Env α) (c : ColumnRef) : Option (String → Option α) :=
  (c.resolve? env.scopes).bind fun p => env.reverse[p.query]?.map fun level => level.2 p.table

def enter (env : Env α) (level : Option NameScope) (cells : Cells α) : Env α :=
  match level with
  | some scope => (scope, cells) :: env
  | none => env

variable {c : ColumnRef} {scope : NameScope}

theorem row?_of_declares (h : scope.declares c = true) (cells : Cells α) :
    ∃ i, ∀ env : Env α, row? ((scope, cells) :: env) c = some (cells i) := by
  obtain ⟨i, hi⟩ := ColumnRef.resolve?_of_declares h
  refine ⟨i, fun env => ?_⟩
  have hplace : c.resolve? (scopes ((scope, cells) :: env)) = some ⟨env.scopes.length, i⟩ := hi _
  rw [row?, hplace, Option.bind_some]
  simp [scopes]

theorem row?_of_not_declares (h : scope.declares c = false) (cells : Cells α) (env : Env α) :
    row? ((scope, cells) :: env) c = env.row? c := by
  have hplace : c.resolve? (scopes ((scope, cells) :: env)) = c.resolve? env.scopes :=
    ColumnRef.resolve?_of_not_declares _ h
  rw [row?, row?, hplace]
  refine Option.bind_congr fun p hp => ?_
  have hlt : p.query < env.reverse.length := by
    simpa [scopes] using ColumnRef.query_lt_of_resolve? hp
  rw [List.reverse_cons, List.getElem?_append_left hlt]

end Env

/-- What nodes mean to a database and how it reads texts. The meaning of a name depends on the row
of its table, and that of any other node on the meanings of what stands in it, for each row of the
tables that are named there. -/
structure Semantics (α ν : Type*) where
  name : Node → Option (String → Option α) → ν
  node : Node → List (Cells α → ν) → ν
  value : ν → Option α
  rows : Env α → List Lexeme → List (Cells α)
  texts : Env α → Valuation α

namespace Semantics

variable {α ν : Type*} (S : Semantics α ν) (catalog : Catalog)

def meaning (env : Env α) (n : Node) : ν :=
  match n.reference? with
  | some c => S.name n (env.row? c)
  | none => S.node n ((n.contents catalog).attach.map fun m cells =>
      meaning (env.enter m.1.1 cells) m.1.2)
termination_by n.size
decreasing_by exact Node.size_contents m.2

variable {catalog}

theorem meaning_of_reference {n : Node} {c : ColumnRef} (h : n.reference? = some c) (env : Env α) :
    S.meaning catalog env n = S.name n (env.row? c) := by
  rw [meaning, h]

theorem meaning_of_contents {n : Node} (h : n.reference? = none) (env : Env α) :
    S.meaning catalog env n = S.node n ((n.contents catalog).map fun m cells =>
      S.meaning catalog (env.enter m.1 cells) m.2) := by
  rw [meaning, h]
  exact congrArg (S.node n) (List.attach_map_val (f := fun (m : Option NameScope × Node) cells =>
    S.meaning catalog (env.enter m.1 cells) m.2))

/-- A node means the same wherever its free names stand for the same rows. -/
theorem meaning_congr {n : Node} {env env' : Env α}
    (h : ∀ r, Node.Refers catalog n r → r.IsFree → env.row? r.column = env'.row? r.column) :
    S.meaning catalog env n = S.meaning catalog env' n := by
  cases hname : n.reference? with
  | some c =>
      rw [S.meaning_of_reference hname, S.meaning_of_reference hname,
        h _ (.here hname) fun scope hscope => nomatch hscope]
  | none =>
      rw [S.meaning_of_contents hname, S.meaning_of_contents hname]
      refine congrArg (S.node n) (List.map_congr_left fun p hp => funext fun cells => ?_)
      obtain ⟨level, m⟩ := p
      refine meaning_congr fun r hr hfree => ?_
      have houter (hlevel : ∀ scope ∈ level, scope.declares r.column = false) :
          env.row? r.column = env'.row? r.column :=
        h (r.enter level) (.inside hp hr) (Reference.isFree_enter.2 ⟨hfree, hlevel⟩)
      -- A name that the query entered here declares stands for one of its own rows in either
      -- environment. Any other name is one of the whole node.
      cases level with
      | none => exact houter (by simp)
      | some scope =>
          cases hdeclares : scope.declares r.column with
          | true =>
              obtain ⟨i, hi⟩ := Env.row?_of_declares hdeclares cells
              rw [Env.enter, Env.enter, hi, hi]
          | false =>
              rw [Env.enter, Env.enter, Env.row?_of_not_declares hdeclares,
                Env.row?_of_not_declares hdeclares]
              exact houter (by simpa using hdeclares)
termination_by n.size
decreasing_by exact Node.size_contents hp

end Semantics

end DialectSql
