import DialectSql.Proofs.Rendered.Size

namespace DialectSql

/-- A table of a query: the name that qualifies its columns, and the names of the columns. -/
structure FromTable where
  name : Option String
  columns : List String

/-- The tables of one query, in the order in which they are written. -/
abbrev NameScope := List FromTable

/-- The columns of the tables of a database, the common table expressions of a statement among them,
and the tables that a query has without a from clause. -/
structure Catalog where
  columns : NamedTable → List String
  dummy : NameScope

/-- A table of a from clause with what it is written from. A cross join has no condition. -/
structure FromItem where
  table : FromTable
  source : TableReference
  lateral : Bool
  condition : Option Predicate

/-- The names of the columns that an item of a select list gives. A computed item has none. -/
def Selection.names (scope : NameScope) (s : Selection) : List (Option String) :=
  match s.label, s.expr with
  | some label, _ => [some label]
  | none, .column _ name => [some name]
  | none, .star none => scope.flatMap fun t => t.columns.map some
  | none, .star (some q) =>
    (scope.find? (·.name == some q)).elim [] fun t => t.columns.map some
  | none, _ => [none]

/-- An empty select list is written as a star. -/
def Selection.allNames (scope : NameScope) (ss : List Selection) : List (Option String) :=
  if ss.isEmpty then Selection.names scope ⟨.star none, none⟩ else ss.flatMap (names scope)

def Catalog.scope (catalog : Catalog) (items : List FromItem) : NameScope :=
  if items.isEmpty then catalog.dummy else items.map (·.table)

mutual

def Query.names (catalog : Catalog) : Query → List (Option String)
  | .spec s => s.names catalog
  | .group g => g.names catalog

def QuerySpec.names (catalog : Catalog) : QuerySpec → List (Option String)
  | ⟨_, selections, roots, _, _, _, _, _, _, _⟩ =>
    Selection.allNames (catalog.scope (rootItems catalog roots)) selections

/-- The columns of a set operation are those of its first member. -/
def QueryGroup.names (catalog : Catalog) : QueryGroup → List (Option String)
  | ⟨_, members, _, _, _, _⟩ => firstNames catalog members

def firstNames (catalog : Catalog) : List Query → List (Option String)
  | [] => []
  | q :: _ => q.names catalog

/-- The names behind the label of a derived table take the places of the first ones. -/
def TableReference.table (catalog : Catalog) (label : Option String) : TableReference → FromTable
  | .named t => ⟨some (label.getD t.name), catalog.columns t⟩
  | .derived q columns => ⟨label, columns ++ ((q.names catalog).drop columns.length).reduceOption⟩

def rootItems (catalog : Catalog) : List TableGroup → List FromItem
  | [] => []
  | ⟨reference, label, joins⟩ :: gs =>
    ⟨reference.table catalog label, reference, false, none⟩ ::
      ((joinItems catalog joins).flatten ++ rootItems catalog gs)

/-- The tables of joins, level by level as they are written. -/
def joinItems (catalog : Catalog) : List TableJoin → List (List FromItem)
  | [] => []
  | ⟨type, ⟨reference, label, joins⟩, p, lateral⟩ :: js =>
    let own := ⟨reference.table catalog label, reference, lateral,
      if type = .cross then none else p⟩
    Render.mergeLevels ([own] :: joinItems catalog joins) (joinItems catalog js)

end

namespace QuerySpec

def items (catalog : Catalog) (s : QuerySpec) : List FromItem := rootItems catalog s.roots

/-- The tables whose columns can be named in a query. -/
def scope (catalog : Catalog) (s : QuerySpec) : NameScope := catalog.scope (s.items catalog)

/-- The names of the select list can be sorted by, too. -/
def sortScope (catalog : Catalog) (s : QuerySpec) : NameScope :=
  ⟨none, (s.names catalog).reduceOption⟩ :: s.scope catalog

end QuerySpec

def QueryGroup.sortScope (catalog : Catalog) (g : QueryGroup) : NameScope :=
  [⟨none, (g.names catalog).reduceOption⟩]

end DialectSql
