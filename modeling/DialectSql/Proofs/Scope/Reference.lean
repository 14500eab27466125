import DialectSql.Proofs.Scope.Tables

namespace DialectSql

open Node

/-- The name of a column, or of all columns of a table. -/
structure ColumnRef where
  qualifier : Option String
  column : Option String
deriving DecidableEq

/-- A name without a qualifier is one of the columns. A qualifier is the name of the table. -/
def FromTable.has (t : FromTable) (c : ColumnRef) : Bool :=
  match c.qualifier with
  | some q => t.name == some q
  | none => c.column.any t.columns.contains

def NameScope.declares (scope : NameScope) (c : ColumnRef) : Bool := scope.any (·.has c)

/-- A table of a query. Queries are counted from the outermost one. -/
structure TablePlace where
  query : Nat
  table : Nat
deriving DecidableEq

/-- The table that a name stands for: the first one that has it in the innermost query with such a
table. -/
def ColumnRef.resolve? (c : ColumnRef) : List NameScope → Option TablePlace
  | [] => none
  | scope :: outer =>
    match scope.findIdx? (·.has c) with
    | some i => some ⟨outer.length, i⟩
    | none => c.resolve? outer

namespace ColumnRef

variable {c : ColumnRef} {scope : NameScope} {scopes : List NameScope}

theorem resolve?_of_declares (h : scope.declares c = true) :
    ∃ i, ∀ outer, c.resolve? (scope :: outer) = some ⟨outer.length, i⟩ := by
  obtain ⟨i, hi⟩ := Option.isSome_iff_exists.1 (List.findIdx?_isSome.trans h)
  exact ⟨i, fun outer => by rw [resolve?, hi]⟩

theorem resolve?_of_not_declares (outer : List NameScope) (h : scope.declares c = false) :
    c.resolve? (scope :: outer) = c.resolve? outer := by
  have hnone : scope.findIdx? (·.has c) = none :=
    List.findIdx?_eq_none_iff.2 fun t ht => by simpa using List.any_eq_false.1 h t ht
  rw [resolve?, hnone]

theorem query_lt_of_resolve? {p : TablePlace} (h : c.resolve? scopes = some p) :
    p.query < scopes.length := by
  induction scopes with
  | nil => cases h
  | cons scope outer ih =>
      cases hdeclares : scope.declares c with
      | true =>
          obtain ⟨i, hi⟩ := resolve?_of_declares hdeclares
          rw [hi] at h
          cases h
          simp
      | false =>
          rw [resolve?_of_not_declares outer hdeclares] at h
          exact (ih h).trans (by simp)

/-- Queries that do not declare a name leave its table as it is, and so do those around the one
that does. -/
theorem resolve?_append (c : ColumnRef) (within outer : List NameScope) :
    (∀ scope ∈ within, scope.declares c = false) ∧
        c.resolve? (within ++ outer) = c.resolve? outer ∨
      (∃ scope ∈ within, scope.declares c = true) ∧
        ∃ p, c.resolve? (within ++ outer) = some p ∧ outer.length ≤ p.query := by
  induction within with
  | nil => exact .inl ⟨by simp, rfl⟩
  | cons scope within ih =>
      cases hdeclares : scope.declares c with
      | true =>
          obtain ⟨i, hi⟩ := resolve?_of_declares hdeclares
          exact .inr ⟨⟨scope, by simp, hdeclares⟩, _, hi _, by simp⟩
      | false =>
          rw [List.cons_append, resolve?_of_not_declares _ hdeclares]
          rcases ih with ⟨hfree, hsame⟩ | ⟨⟨t, ht, hbound⟩, hplace⟩
          · exact .inl ⟨List.forall_mem_cons.2 ⟨hdeclares, hfree⟩, hsame⟩
          · exact .inr ⟨⟨t, List.mem_cons_of_mem _ ht, hbound⟩, hplace⟩

end ColumnRef

/-- A name in an expression, with the queries of the expression that it stands in, the innermost
one first. -/
structure Reference where
  column : ColumnRef
  within : List NameScope

namespace Reference

/-- A reference in an inner query, seen from outside the query. -/
def enter (r : Reference) (scope : Option NameScope) : Reference :=
  { r with within := r.within ++ scope.toList }

/-- No query of the expression itself has the name. -/
def IsFree (r : Reference) : Prop := ∀ scope ∈ r.within, scope.declares r.column = false

/-- The table around the expression that a reference stands for. -/
def outerTable? (r : Reference) (outer : List NameScope) : Option TablePlace :=
  (r.column.resolve? (r.within ++ outer)).filter (·.query < outer.length)

/-- A query has the name of a reference to a table around it. -/
def CapturedBy (scope : NameScope) (r : Reference) : Prop :=
  r.IsFree ∧ scope.declares r.column = true

variable {r : Reference} {scope : NameScope} {outer : List NameScope}

theorem isFree_enter {level : Option NameScope} :
    (r.enter level).IsFree ↔ r.IsFree ∧ ∀ scope ∈ level, scope.declares r.column = false := by
  simp [IsFree, enter, or_imp, forall_and]

theorem outerTable?_of_isFree (h : r.IsFree) : r.outerTable? outer = r.column.resolve? outer := by
  rcases r.column.resolve?_append r.within outer with ⟨-, hsame⟩ | ⟨⟨scope, hscope, hbound⟩, -⟩
  · rw [outerTable?, hsame]
    cases hp : r.column.resolve? outer with
    | none => rfl
    | some p => simp [ColumnRef.query_lt_of_resolve? hp]
  · rw [h scope hscope] at hbound
    cases hbound

theorem outerTable?_of_not_isFree (h : ¬ r.IsFree) : r.outerTable? outer = none := by
  rcases r.column.resolve?_append r.within outer with ⟨hfree, -⟩ | ⟨-, p, hp, hquery⟩
  · exact absurd hfree h
  · simp [outerTable?, hp, hquery]

/-- Inside a query a reference stands for the same table as outside it, unless the query has its
name. -/
theorem outerTable?_cons_eq_iff :
    r.outerTable? (scope :: outer) = r.outerTable? outer ↔ ¬ r.CapturedBy scope := by
  by_cases hfree : r.IsFree
  · rw [outerTable?_of_isFree hfree, outerTable?_of_isFree hfree, CapturedBy, and_iff_right hfree]
    cases hdeclares : scope.declares r.column with
    | true =>
        obtain ⟨i, hi⟩ := ColumnRef.resolve?_of_declares hdeclares
        rw [hi]
        refine iff_of_false (fun h => ?_) (by simp)
        exact absurd (ColumnRef.query_lt_of_resolve? h.symm) (lt_irrefl _)
    | false => simp [ColumnRef.resolve?_of_not_declares outer hdeclares]
  · rw [outerTable?_of_not_isFree hfree, outerTable?_of_not_isFree hfree]
    exact iff_of_true rfl fun h => hfree h.1

end Reference

def Expr.reference? : Expr → Option ColumnRef
  | .column qualifier name => some ⟨qualifier, some name⟩
  | .star (some q) => some ⟨some q, none⟩
  | _ => none

def Predicate.operands : Predicate → List Node
  | .comparison lhs _ rhs => exprs [lhs, rhs]
  | .junction _ members => members.map .predicate
  | .negated p => [.predicate p]
  | .nullCheck e _ | .boolean e => [.expr e]
  | .inList e list _ => exprs (e :: list)
  | .inSubquery e q _ => [.expr e, .query none q]
  | .exists q _ => [.query none q]
  | .between e low high _ => exprs [e, low, high]
  | .like e pattern _ _ => exprs [e, pattern]

/-- The derived tables and the conditions of a from clause. A lateral table can name the tables in
front of it, a condition all of them. -/
def FromItem.contents (scope : NameScope) :
    NameScope → List FromItem → List (Option NameScope × Node)
  | _, [] => []
  | before, i :: is =>
    i.source.parts.map (if i.lateral then some before else none, ·) ++
      (given i.condition).map (some scope, ·) ++ contents scope (before ++ [i.table]) is

def QuerySpec.contents (catalog : Catalog) (s : QuerySpec) : List (Option NameScope × Node) :=
  FromItem.contents (s.scope catalog) [] (s.items catalog) ++
    (exprs s.columns ++ given s.restriction ++ exprs s.groupBy ++ given s.having ++
      exprs (s.offset.toList ++ s.fetch.toList)).map (some (s.scope catalog), ·) ++
    (Node.sortKeys s.orderBy).map (some (s.sortScope catalog), ·)

def QueryGroup.contents (catalog : Catalog) (g : QueryGroup) : List (Option NameScope × Node) :=
  g.members.map (none, .query none ·) ++
    (Node.sortKeys g.orderBy ++ exprs (g.offset.toList ++ g.fetch.toList)).map
      (some (g.sortScope catalog), ·)

namespace Node

def reference? : Node → Option ColumnRef
  | expr e => e.reference?
  | _ => none

/-- What stands directly in a node. In a query it comes with the tables that it can name there. -/
def contents (catalog : Catalog) : Node → List (Option NameScope × Node)
  | expr e => e.parts.map (none, ·)
  | predicate p => p.operands.map (none, ·)
  | query _ (.spec s) => s.contents catalog
  | query _ (.group g) => g.contents catalog

/-- A name stands in a node, in queries of the node or in none. -/
inductive Refers (catalog : Catalog) : Node → Reference → Prop
  | here {n : Node} {c : ColumnRef} (h : n.reference? = some c) : Refers catalog n ⟨c, []⟩
  | inside {n m : Node} {level : Option NameScope} {r : Reference}
      (hpart : (level, m) ∈ n.contents catalog) (h : Refers catalog m r) :
      Refers catalog n (r.enter level)

theorem refers_column (catalog : Catalog) {qualifier : Option String} {name : String}
    {r : Reference} :
    Refers catalog (.expr (.column qualifier name)) r ↔ r = ⟨⟨qualifier, some name⟩, []⟩ := by
  constructor
  · rintro (h | ⟨hpart, -⟩)
    · cases h
      rfl
    · cases hpart
  · rintro rfl
    exact .here rfl

end Node

end DialectSql
