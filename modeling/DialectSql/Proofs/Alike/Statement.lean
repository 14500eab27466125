import DialectSql.Ast.Builder
import DialectSql.Dialect.Basic
import DialectSql.Lock
import Mathlib.Data.List.Forall2

namespace DialectSql

/-- What two statements may differ in that are otherwise the same: their literals and the escape
characters of their patterns. Their names are the same, and are such as allowed. -/
structure Likeness where
  name : String → Prop
  literal : SqlValue → SqlValue → Prop
  escape : Char → Char → Prop

variable (L : Likeness)

def Likeness.optionalName (n : Option String) : Prop := ∀ a ∈ n, L.name a

def Likeness.names (ns : List String) : Prop := ∀ n ∈ ns, L.name n

def DataType.Named : DataType → Prop
  | .custom n => L.name n
  | _ => True

/-- The texts that the names of the standard types are made of, the numbers in them aside. -/
def DataType.fixedTexts : List String :=
  ["smallint", "integer", "bigint", "double precision", "decimal", "decimal(", "char", "varchar",
    "blob", "date", "time", "timestamp", "boolean", "(", ",", ")"]

/-- The text of a type is an allowed name where the fixed texts and the numbers are, and what is put
together from allowed names. -/
theorem DataType.name_sql {L : Likeness}
    (happend : ∀ {a b : String}, L.name a → L.name b → L.name (a ++ b))
    (hnat : ∀ n : Nat, L.name (toString n)) (hfixed : ∀ w ∈ DataType.fixedTexts, L.name w)
    {t : DataType} (h : t.Named L) : L.name t.sql := by
  have hbetween {a b : String} (ha : L.name a) (hb : L.name b) (n : Nat) :
      L.name (a ++ toString n ++ b) := happend (happend ha (hnat n)) hb
  have hclose := hfixed ")" (by decide)
  have hsized {name : String} (hname : L.name name) (n : Option UInt32) :
      L.name (sized name n) := by
    cases n with
    | none => exact hname
    | some n => exact hbetween (happend hname (hfixed "(" (by decide))) hclose n.toNat
  cases t with
  | decimal p s =>
      cases p with
      | none => cases s <;> exact hfixed "decimal" (by decide)
      | some p =>
          have hopen := hfixed "decimal(" (by decide)
          cases s with
          | none => exact hbetween hopen hclose p.toNat
          | some s => exact hbetween (hbetween hopen (hfixed "," (by decide)) p.toNat) hclose s.toNat
  | char n => exact hsized (hfixed "char" (by decide)) n
  | varchar n => exact hsized (hfixed "varchar" (by decide)) n
  | custom n => exact h
  | _ => exact hfixed _ (by decide)

def NamedTable.Named (t : NamedTable) : Prop := L.optionalName t.schema ∧ L.name t.name

mutual

inductive Expr.Alike : Expr → Expr → Prop
  | column {q : Option String} {n : String} (hq : L.optionalName q) (hn : L.name n) :
    Expr.Alike (.column q n) (.column q n)
  | literal {v v' : SqlValue} (h : L.literal v v') : Expr.Alike (.literal v) (.literal v')
  | parameter (s : BindSlot) : Expr.Alike (.parameter s) (.parameter s)
  | tuple {es es' : List Expr} (h : Expr.AllAlike es es') : Expr.Alike (.tuple es) (.tuple es')
  | summarization {es es' : List Expr} (kind : SummarizationKind) (h : Expr.AllAlike es es') :
    Expr.Alike (.summarization kind es) (.summarization kind es')
  | binary {l l' r r' : Expr} (op : BinaryOp) (hl : Expr.Alike l l') (hr : Expr.Alike r r') :
    Expr.Alike (.binary l op r) (.binary l' op r')
  | negate {e e' : Expr} (h : Expr.Alike e e') : Expr.Alike (.negate e) (.negate e')
  | function {n : String} {es es' : List Expr} (distinct : Bool) (hn : L.name n)
    (h : Expr.AllAlike es es') : Expr.Alike (.function n es distinct) (.function n es' distinct)
  | case {bs bs' : List WhenClause} {e e' : Option Expr} (hb : WhenClause.AllAlike bs bs')
    (he : Expr.OptionAlike e e') : Expr.Alike (.case bs e) (.case bs' e')
  | cast {e e' : Expr} {t : DataType} (h : Expr.Alike e e') (ht : t.Named L) :
    Expr.Alike (.cast e t) (.cast e' t)
  | subquery {q q' : Query} (h : Query.Alike q q') : Expr.Alike (.subquery q) (.subquery q')
  | quantified {q q' : Query} (quantifier : Quantifier) (h : Query.Alike q q') :
    Expr.Alike (.quantified quantifier q) (.quantified quantifier q')
  | windowed {f f' : Expr} {es es' : List Expr} {ks ks' : List SortKey}
    (frame : Option WindowFrame) (hf : Expr.Alike f f') (he : Expr.AllAlike es es')
    (hk : SortKey.AllAlike ks ks') : Expr.Alike (.windowed f es ks frame) (.windowed f' es' ks' frame)
  | star {q : Option String} (hq : L.optionalName q) : Expr.Alike (.star q) (.star q)

inductive Expr.AllAlike : List Expr → List Expr → Prop
  | nil : Expr.AllAlike [] []
  | cons {e e' : Expr} {es es' : List Expr} (h : Expr.Alike e e') (hs : Expr.AllAlike es es') :
    Expr.AllAlike (e :: es) (e' :: es')

inductive Expr.OptionAlike : Option Expr → Option Expr → Prop
  | none : Expr.OptionAlike none none
  | some {e e' : Expr} (h : Expr.Alike e e') : Expr.OptionAlike (some e) (some e')

inductive WhenClause.AllAlike : List WhenClause → List WhenClause → Prop
  | nil : WhenClause.AllAlike [] []
  | cons {p p' : Predicate} {e e' : Expr} {bs bs' : List WhenClause} (hp : Predicate.Alike p p')
    (he : Expr.Alike e e') (hs : WhenClause.AllAlike bs bs') :
    WhenClause.AllAlike (⟨p, e⟩ :: bs) (⟨p', e'⟩ :: bs')

inductive SortKey.AllAlike : List SortKey → List SortKey → Prop
  | nil : SortKey.AllAlike [] []
  | cons {e e' : Expr} {ks ks' : List SortKey} (direction : OrderDirection)
    (nulls : Option NullOrdering) (h : Expr.Alike e e') (hs : SortKey.AllAlike ks ks') :
    SortKey.AllAlike (⟨e, direction, nulls⟩ :: ks) (⟨e', direction, nulls⟩ :: ks')

inductive Predicate.Alike : Predicate → Predicate → Prop
  | comparison {l l' r r' : Expr} (op : ComparisonOperator) (hl : Expr.Alike l l')
    (hr : Expr.Alike r r') : Predicate.Alike (.comparison l op r) (.comparison l' op r')
  | junction {ps ps' : List Predicate} (nature : JunctionNature) (h : Predicate.AllAlike ps ps') :
    Predicate.Alike (.junction nature ps) (.junction nature ps')
  | negated {p p' : Predicate} (h : Predicate.Alike p p') :
    Predicate.Alike (.negated p) (.negated p')
  | nullCheck {e e' : Expr} (negated : Bool) (h : Expr.Alike e e') :
    Predicate.Alike (.nullCheck e negated) (.nullCheck e' negated)
  | inList {e e' : Expr} {es es' : List Expr} (negated : Bool) (h : Expr.Alike e e')
    (hs : Expr.AllAlike es es') : Predicate.Alike (.inList e es negated) (.inList e' es' negated)
  | inSubquery {e e' : Expr} {q q' : Query} (negated : Bool) (h : Expr.Alike e e')
    (hq : Query.Alike q q') : Predicate.Alike (.inSubquery e q negated) (.inSubquery e' q' negated)
  | exists {q q' : Query} (negated : Bool) (h : Query.Alike q q') :
    Predicate.Alike (.exists q negated) (.exists q' negated)
  | between {e e' l l' r r' : Expr} (negated : Bool) (h : Expr.Alike e e') (hl : Expr.Alike l l')
    (hr : Expr.Alike r r') : Predicate.Alike (.between e l r negated) (.between e' l' r' negated)
  | like {e e' p p' : Expr} (negated : Bool) (h : Expr.Alike e e') (hp : Expr.Alike p p') :
    Predicate.Alike (.like e p none negated) (.like e' p' none negated)
  | likeEscape {e e' p p' : Expr} {c c' : Char} (negated : Bool) (h : Expr.Alike e e')
    (hp : Expr.Alike p p') (hc : L.escape c c') :
    Predicate.Alike (.like e p (some c) negated) (.like e' p' (some c') negated)
  | boolean {e e' : Expr} (h : Expr.Alike e e') : Predicate.Alike (.boolean e) (.boolean e')

inductive Predicate.AllAlike : List Predicate → List Predicate → Prop
  | nil : Predicate.AllAlike [] []
  | cons {p p' : Predicate} {ps ps' : List Predicate} (h : Predicate.Alike p p')
    (hs : Predicate.AllAlike ps ps') : Predicate.AllAlike (p :: ps) (p' :: ps')

inductive Predicate.OptionAlike : Option Predicate → Option Predicate → Prop
  | none : Predicate.OptionAlike none none
  | some {p p' : Predicate} (h : Predicate.Alike p p') : Predicate.OptionAlike (some p) (some p')

inductive Selection.AllAlike : List Selection → List Selection → Prop
  | nil : Selection.AllAlike [] []
  | cons {e e' : Expr} {label : Option String} {ss ss' : List Selection} (h : Expr.Alike e e')
    (hl : L.optionalName label) (hs : Selection.AllAlike ss ss') :
    Selection.AllAlike (⟨e, label⟩ :: ss) (⟨e', label⟩ :: ss')

inductive TableReference.Alike : TableReference → TableReference → Prop
  | named {t : NamedTable} (h : t.Named L) : TableReference.Alike (.named t) (.named t)
  | derived {q q' : Query} {columns : List String} (h : Query.Alike q q')
    (hc : L.names columns) : TableReference.Alike (.derived q columns) (.derived q' columns)

inductive TableGroup.AllAlike : List TableGroup → List TableGroup → Prop
  | nil : TableGroup.AllAlike [] []
  | cons {r r' : TableReference} {label : Option String} {js js' : List TableJoin}
    {gs gs' : List TableGroup} (h : TableReference.Alike r r') (hl : L.optionalName label)
    (hj : TableJoin.AllAlike js js') (hs : TableGroup.AllAlike gs gs') :
    TableGroup.AllAlike (⟨r, label, js⟩ :: gs) (⟨r', label, js'⟩ :: gs')

inductive TableJoin.AllAlike : List TableJoin → List TableJoin → Prop
  | nil : TableJoin.AllAlike [] []
  | cons {r r' : TableReference} {label : Option String} {p p' : Option Predicate}
    {ks ks' js js' : List TableJoin} (type : JoinType) (lateral : Bool)
    (h : TableReference.Alike r r') (hl : L.optionalName label) (hk : TableJoin.AllAlike ks ks')
    (hp : Predicate.OptionAlike p p') (hs : TableJoin.AllAlike js js') :
    TableJoin.AllAlike (⟨type, ⟨r, label, ks⟩, p, lateral⟩ :: js)
      (⟨type, ⟨r', label, ks'⟩, p', lateral⟩ :: js')

inductive QuerySpec.Alike : QuerySpec → QuerySpec → Prop
  | mk {items items' : List Selection} {roots roots' : List TableGroup}
    {restriction restriction' having having' : Option Predicate} {groupBy groupBy' : List Expr}
    {keys keys' : List SortKey} {offset offset' fetch fetch' : Option Expr} (distinct : Bool)
    (kind : FetchKind) (hi : Selection.AllAlike items items') (hr : TableGroup.AllAlike roots roots')
    (hw : Predicate.OptionAlike restriction restriction') (hg : Expr.AllAlike groupBy groupBy')
    (hh : Predicate.OptionAlike having having') (hk : SortKey.AllAlike keys keys')
    (ho : Expr.OptionAlike offset offset') (hf : Expr.OptionAlike fetch fetch') :
    QuerySpec.Alike
      ⟨distinct, items, roots, restriction, groupBy, having, keys, offset, fetch, kind⟩
      ⟨distinct, items', roots', restriction', groupBy', having', keys', offset', fetch', kind⟩

inductive QueryGroup.Alike : QueryGroup → QueryGroup → Prop
  | mk {qs qs' : List Query} {keys keys' : List SortKey} {offset offset' fetch fetch' : Option Expr}
    (operator : SetOperator) (kind : FetchKind) (hq : Query.AllAlike qs qs')
    (hk : SortKey.AllAlike keys keys') (ho : Expr.OptionAlike offset offset')
    (hf : Expr.OptionAlike fetch fetch') :
    QueryGroup.Alike ⟨operator, qs, keys, offset, fetch, kind⟩
      ⟨operator, qs', keys', offset', fetch', kind⟩

inductive Query.Alike : Query → Query → Prop
  | spec {s s' : QuerySpec} (h : QuerySpec.Alike s s') : Query.Alike (.spec s) (.spec s')
  | group {g g' : QueryGroup} (h : QueryGroup.Alike g g') : Query.Alike (.group g) (.group g')

inductive Query.AllAlike : List Query → List Query → Prop
  | nil : Query.AllAlike [] []
  | cons {q q' : Query} {qs qs' : List Query} (h : Query.Alike q q')
    (hs : Query.AllAlike qs qs') : Query.AllAlike (q :: qs) (q' :: qs')

end

def SearchClause.Named (c : SearchClause) : Prop :=
  (∀ i ∈ c.items, L.name i.column) ∧ L.name c.sequenceColumn

structure CycleClause.Alike (c c' : CycleClause) : Prop where
  columns : c.columns = c'.columns
  markColumn : c.markColumn = c'.markColumn
  pathColumn : c.pathColumn = c'.pathColumn
  named : L.names c.columns ∧ L.name c.markColumn ∧ L.optionalName c.pathColumn
  cycleValue : L.literal c.cycleValue c'.cycleValue
  nonCycleValue : L.literal c.nonCycleValue c'.nonCycleValue

structure Cte.Alike (c c' : Cte) : Prop where
  name : c.name = c'.name
  columns : c.columns = c'.columns
  recursive : c.recursive = c'.recursive
  search : c.search = c'.search
  materialization : c.materialization = c'.materialization
  named : L.name c.name ∧ L.names c.columns ∧ ∀ s ∈ c.search, s.Named L
  query : c.query.Alike L c'.query
  cycle : Option.Rel (CycleClause.Alike L) c.cycle c'.cycle

structure SelectStatement.Alike (s s' : SelectStatement) : Prop where
  ctes : List.Forall₂ (Cte.Alike L) s.ctes s'.ctes
  query : s.query.Alike L s'.query

inductive InsertSource.Alike : InsertSource → InsertSource → Prop
  | values {rows rows' : List (List Expr)} (h : List.Forall₂ (Expr.AllAlike L) rows rows') :
    InsertSource.Alike (.values rows) (.values rows')
  | query {s s' : SelectStatement} (h : s.Alike L s') : InsertSource.Alike (.query s) (.query s')
  | defaultValues : InsertSource.Alike .defaultValues .defaultValues

structure Assignment.Alike (a a' : Assignment) : Prop where
  column : a.column = a'.column
  named : L.name a.column
  value : a.value.Alike L a'.value

/-- The statements are the same but for what the likeness lets differ. -/
inductive Statement.Alike : Statement → Statement → Prop
  | select {s s' : SelectStatement} (h : s.Alike L s') : Statement.Alike (.select s) (.select s')
  | insert {target : NamedTable} {columns : List String} {source source' : InsertSource}
    (ht : target.Named L) (hc : L.names columns) (h : source.Alike L source') :
    Statement.Alike (.insert ⟨target, columns, source⟩) (.insert ⟨target, columns, source'⟩)
  | update {target : NamedTable} {assignments assignments' : List Assignment}
    {restriction restriction' : Option Predicate} (ht : target.Named L)
    (ha : List.Forall₂ (Assignment.Alike L) assignments assignments')
    (h : Predicate.OptionAlike L restriction restriction') :
    Statement.Alike (.update ⟨target, assignments, restriction⟩)
      (.update ⟨target, assignments', restriction'⟩)
  | delete {target : NamedTable} {restriction restriction' : Option Predicate}
    (ht : target.Named L) (h : Predicate.OptionAlike L restriction restriction') :
    Statement.Alike (.delete ⟨target, restriction⟩) (.delete ⟨target, restriction'⟩)

end DialectSql
