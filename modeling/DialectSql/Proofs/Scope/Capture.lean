import DialectSql.Proofs.Existence.Emulation
import DialectSql.Proofs.Scope.Meaning

namespace DialectSql

open Emulation (OfValues)

variable {α : Type*} [LinearOrder α]

/-- The comparisons of a row with the rows of a query that pass the where clause. -/
def QuerySpec.comparisons (d : Dialect) (s : QuerySpec) (op : ComparisonOperator)
    (left : Valuation α → List (Option α)) (rows : List (Valuation α)) : List Truth :=
  (rows.filter (s.filters d)).map fun V => Row.truth op (left V) (V.row d s.columns)

/-- A comparison with any row is true of one of them. A comparison with all rows stands unless it is
false of one. -/
def Quantifier.found : Quantifier → List Truth → Bool
  | .any, truths => truths.any (· == .true)
  | .all, truths => !truths.any (· == .false)

namespace Emulation

variable {d : Dialect} {ls : List Expr} {s : QuerySpec} {op : ComparisonOperator}
  {quantifier : Quantifier} {negated : Bool} {o : Output}

/-- The emulation compares the rows of the query with the tuple as each of them gives it. -/
theorem existence?_found (h : Emulation d ls s op quantifier negated o) (hok : o.failure = none)
    (hls : ls ≠ []) (hvalues : op.isDistinctness = true → OfValues ls s)
    (hnull : op.isDistinctness = true → quantifier = .all → d.testsNulls = false) (T : Tables α) :
    o.existence? T = some (negated ^^
      quantifier.found (s.comparisons d op (·.row d ls) (T (s.tablesText d)))) := by
  rw [h.existence?_eq hok T]
  refine congrArg (fun found => some (negated ^^ found)) ?_
  cases quantifier with
  | any =>
      have hany : (Quantifier.any == .all) = false := rfl
      rw [hany, Bool.false_xor, Quantifier.found, QuerySpec.comparisons, List.any_map,
        List.any_filter]
      exact congrArg (List.any _) (funext fun V => h.admits_any hok hls hvalues V)
  | all =>
      have hall : (Quantifier.all == .all) = true := rfl
      rw [hall, Bool.true_xor, Quantifier.found, QuerySpec.comparisons, List.any_map,
        List.any_filter]
      refine congrArg (fun found => !found) (congrArg (List.any _) (funext fun V => ?_))
      exact h.admits_all hok hls hvalues V fun hop => hnull hop rfl

end Emulation

namespace Semantics

variable {ν : Type*} (S : Semantics α ν)

/-- The rows of the tables of a query, each with the queries around it. -/
def tables (env : Env α) (scope : NameScope) : Tables α :=
  fun text => (S.rows env text).map fun cells => S.texts ((scope, cells) :: env)

/-- The texts of expressions are read as the expressions. -/
def Reads (d : Dialect) (catalog : Catalog) (es : List Expr) : Prop :=
  ∀ e ∈ es, ∀ env,
    (S.texts env).of (Render.expression d e) = S.value (S.meaning catalog env (.expr e))

variable {S} {d : Dialect} {catalog : Catalog} {ls : List Expr} {scope : NameScope}

omit [LinearOrder α] in
/-- A tuple of which the tables of a query capture no name has the same values in the query. -/
theorem row_enter (hreads : S.Reads d catalog ls)
    (hnames : ∀ l ∈ ls, ∀ r, Node.Refers catalog (.expr l) r → ¬ r.CapturedBy scope)
    (cells : Cells α) (env : Env α) :
    (S.texts ((scope, cells) :: env)).row d ls = (S.texts env).row d ls := by
  refine List.map_congr_left fun l hl => ?_
  rw [hreads l hl, hreads l hl]
  refine congrArg S.value (S.meaning_congr fun r hr hfree => ?_)
  have hdeclares : scope.declares r.column = false :=
    Bool.eq_false_iff.2 fun hdeclares => hnames l hl r hr ⟨hfree, hdeclares⟩
  exact Env.row?_of_not_declares hdeclares cells env

end Semantics

variable {ν : Type*} {d : Dialect} {ls : List Expr} {s : QuerySpec} {op : ComparisonOperator}
  {quantifier : Quantifier} {negated : Bool} {o : Output}

/-- A name of the tuple stands for the same table inside the emulation as outside it, unless the
tables of the query have it. Where they have none of the names, the emulation finds what the
comparison of the tuple finds, as it stands in the query around. -/
theorem existence_keeps_names (h : Emulation d ls s op quantifier negated o)
    (hok : o.failure = none) (catalog : Catalog) :
    (∀ outer, ∀ l ∈ ls, ∀ r, Node.Refers catalog (.expr l) r →
      (r.outerTable? (s.scope catalog :: outer) = r.outerTable? outer ↔
        ¬ r.CapturedBy (s.scope catalog))) ∧
    (ls ≠ [] → (op.isDistinctness = true → OfValues ls s) →
      (op.isDistinctness = true → quantifier = .all → d.testsNulls = false) →
      (∀ l ∈ ls, ∀ r, Node.Refers catalog (.expr l) r → ¬ r.CapturedBy (s.scope catalog)) →
      ∀ S : Semantics α ν, S.Reads d catalog ls → ∀ env,
        let tables := S.tables env (s.scope catalog)
        o.existence? tables = some (negated ^^ quantifier.found
          (s.comparisons d op (fun _ => (S.texts env).row d ls) (tables (s.tablesText d))))) := by
  refine ⟨fun outer l _ r _ => Reference.outerTable?_cons_eq_iff, ?_⟩
  intro hls hvalues hnull hnames S hreads env tables
  rw [h.existence?_found hok hls hvalues hnull tables]
  refine congrArg (fun truths => some (negated ^^ quantifier.found truths)) ?_
  refine List.map_congr_left fun V hV => ?_
  obtain ⟨cells, -, rfl⟩ := List.mem_map.1 (List.mem_filter.1 hV).1
  exact congrArg (Row.truth op · _) (Semantics.row_enter hreads hnames cells env)

/-- A database in which a query names one table, with the values of the columns in its rows. -/
def Semantics.ofTable (table : String) (rows : List (List (String × Nat))) :
    Semantics Nat (Option Nat) where
  name
    | .expr (.column _ column), row => row.bind (· column)
    | _, _ => none
  node _ _ := none
  value := id
  rows _ text :=
    if text = [.word "from", .unit (.table table)] then
      rows.map fun row _ column => row.lookup column
    else []
  texts env :=
    { operand := fun
        | [.unit (.name column)] => (env.row? ⟨none, some column⟩).bind (· column)
        | _ => none
      test := fun _ => .unknown }

namespace Emulation

def person : List Expr := [.column none "id", .column none "name"]

/-- The query `select owner, title from pet`, or with another column in the place of the title. -/
def pets (column : String) : QuerySpec :=
  ((QuerySpec.empty.select (.column none "owner") none).select (.column none column) none).addRoot
    (.table "pet")

/-- A table `pet` of the owners and one other column. -/
def petCatalog (column : String) : Catalog :=
  ⟨fun t => if t.name = "pet" then ["owner", column] else [], []⟩

/-- One row of a table `person`. -/
def personRow (id name : Nat) : Env Nat :=
  [([⟨some "person", ["id", "name"]⟩], fun _ column => [("id", id), ("name", name)].lookup column)]

theorem reads_person (table : String) (rows : List (List (String × Nat))) (catalog : Catalog) :
    (Semantics.ofTable table rows).Reads .timesten catalog person := by
  intro e he env
  simp only [person, List.mem_cons, List.not_mem_nil, or_false] at he
  rcases he with rfl | rfl
  all_goals
    rw [Semantics.meaning_of_reference _ rfl]
    rfl

theorem failure_pets {column : String} {o : Output}
    (h : Emulation .timesten person (pets column) .equal .any false o) : o.failure = none := by
  have hcolumn (name : String) :
      (Render.expression .timesten (.column none name)).failure = none := rfl
  have hrows : Comparable .timesten person (pets column).columns :=
    ⟨by simp [person], rfl, by simp [person, hcolumn],
      by simp [QuerySpec.columns, pets, QuerySpec.empty, QuerySpec.select, QuerySpec.addRoot,
        hcolumn]⟩
  have hrestriction : ∀ r, (pets column).movedRestriction .timesten = some r → r.failure = none := by
    intro r hr
    cases hr
  exact h.complete rfl rfl hrows rfl hrestriction

theorem refers_person {catalog : Catalog} {r : Reference} {l : Expr} (hl : l ∈ person)
    (h : Node.Refers catalog (.expr l) r) :
    r = ⟨⟨none, some "id"⟩, []⟩ ∨ r = ⟨⟨none, some "name"⟩, []⟩ := by
  simp only [person, List.mem_cons, List.not_mem_nil, or_false] at hl
  rcases hl with rfl | rfl
  · exact .inl ((Node.refers_column _).1 h)
  · exact .inr ((Node.refers_column _).1 h)

end Emulation

open Emulation

/-- With the titles of pets beside their owners no name is captured: a person is found by id and
name. -/
theorem existence_keeps_names_title :
    let o := Render.predicate .timesten (.inSubquery (.tuple person) (.spec (pets "title")) false)
    let S := Semantics.ofTable "pet" [[("owner", 1), ("title", 5)], [("owner", 2), ("title", 6)]]
    let tables (id name : Nat) :=
      S.tables (personRow id name) ((pets "title").scope (petCatalog "title"))
    o.failure = none ∧ o.existence? (tables 1 5) = some true ∧
      o.existence? (tables 1 6) = some false := by
  intro o S tables
  have h : Emulation .timesten person (pets "title") .equal .any false o := .membership false rfl
  have hok : o.failure = none := failure_pets h
  have hnames : ∀ l ∈ person, ∀ r, Node.Refers (petCatalog "title") (.expr l) r →
      ¬ r.CapturedBy ((pets "title").scope (petCatalog "title")) := by
    rintro l hl r hr ⟨-, hdeclares⟩
    rcases refers_person hl hr with rfl | rfl <;> exact absurd hdeclares (by decide)
  obtain ⟨-, hkeeps⟩ :=
    @existence_keeps_names Nat _ (Option Nat) _ _ _ _ _ _ _ h hok (petCatalog "title")
  have hfound (id name : Nat) := hkeeps (by simp [person]) nofun nofun hnames S (reads_person _ _ _)
    (personRow id name)
  exact ⟨hok, (hfound 1 5).trans (by decide), (hfound 1 6).trans (by decide)⟩

/-- The names of pets capture the name of a person: inside the query the person's name stands for
the name of the pet, and a person of another name than the pet is found. -/
theorem existence_captures_name :
    let o := Render.predicate .timesten (.inSubquery (.tuple person) (.spec (pets "name")) false)
    let S := Semantics.ofTable "pet" [[("owner", 1), ("name", 2)]]
    let env := personRow 1 1
    let scope := (pets "name").scope (petCatalog "name")
    let name : Reference := ⟨⟨none, some "name"⟩, []⟩
    o.failure = none ∧ S.Reads .timesten (petCatalog "name") person ∧
      Node.Refers (petCatalog "name") (.expr (.column none "name")) name ∧
      name.outerTable? env.scopes = some ⟨0, 0⟩ ∧
      name.outerTable? (scope :: env.scopes) = some ⟨1, 0⟩ ∧
      o.existence? (S.tables env scope) = some true ∧
      Quantifier.any.found ((pets "name").comparisons .timesten .equal
        (fun _ => (S.texts env).row .timesten person)
        (S.tables env scope ((pets "name").tablesText .timesten))) = false := by
  intro o S env scope name
  have h : Emulation .timesten person (pets "name") .equal .any false o := .membership false rfl
  have hok : o.failure = none := failure_pets h
  have hfound := h.existence?_found hok (by simp [person]) nofun nofun (S.tables env scope)
  exact ⟨hok, reads_person _ _ _, (Node.refers_column _).2 rfl, by decide, by decide,
    hfound.trans (by decide), by decide⟩

end DialectSql
