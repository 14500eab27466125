import DialectSql.Proofs.Tables.Calls
import DialectSql.Proofs.Tables.References

namespace DialectSql

/-- A dialect that renders every part of a query where it stands in the query. -/
structure Dialect.KeepsParts (d : Dialect) : Prop where
  rowValues : d.capabilities.rowValueConstructor = true
  quantifiedRowValues : d.capabilities.rowValueInQuantified = true
  rowLimit : d.strategies.rowLimit = .standard
  trailing : d.capabilities.rowLimit ≠ .rowsTo

/-- The tables of the parts that a query keeps in an existence test. -/
def Query.movedReferences : Query → List NamedTable
  | .spec s =>
    Selection.listReferences s.selections ++ TableGroup.listReferences s.roots ++
      Predicate.optionReferences s.restriction
  | .group _ => []

theorem Query.mem_references_of_moved {q : Query} {t : NamedTable} (h : t ∈ q.movedReferences) :
    t ∈ q.references := by
  cases q with
  | group g => cases h
  | spec spec =>
      obtain ⟨distinct, items, roots, restriction⟩ := spec
      simp only [movedReferences, references, QuerySpec.references, List.mem_append] at h ⊢
      tauto

/-- The tables that are named in what a call renders. -/
def RenderCall.references (s : Session) : RenderCall → List NamedTable
  | expression e | partitionItem _ e => e.references
  | predicate p => p.references
  | expressions es | summarization _ es | integerSum es _ => Expr.listReferences es
  | sortKeys keys => SortKey.listReferences keys
  | rowsTo offset fetch _ => Expr.optionReferences offset ++ Expr.optionReferences fetch
  | query q | nestedQuery q => q.references
  | selections c viaDialect =>
    Selection.listReferences c.selections ++
      if viaDialect ∧ s.dialect.strategies.selectList = .rowsTo then
        s.currentSpec.elim [] fun spec =>
          Expr.optionReferences spec.offset ++ Expr.optionReferences spec.fetch
      else []
  | rowLimit q _ => Expr.optionReferences q.offset ++ Expr.optionReferences q.fetch
  | upperBound _ fetch offset _ => fetch.references ++ Expr.optionReferences offset
  | comparison _ l _ r => l.references ++ r.references
  | tuples ls rs _ _ => Expr.listReferences ls ++ Expr.listReferences rs
  | subqueryTuple ls q _ _ _ => Expr.listReferences ls ++ q.movedReferences
  | selectTuple _ ss ls _ => Selection.listReferences ss ++ Expr.listReferences ls
  | tableGroup g => g.reference.references
  | tableGroupOn g p => g.reference.references ++ p.references
  | joinedGroup j p => j.joined.reference.references ++ Predicate.optionReferences p
  | join j => j.joined.reference.references ++ Predicate.optionReferences j.predicate
  | _ => []

namespace RenderCall

variable (s : Session)

@[simp] theorem references_expression (e : Expr) : (expression e).references s = e.references := rfl

@[simp] theorem references_predicate (p : Predicate) :
    (predicate p).references s = p.references := rfl

@[simp] theorem references_expressions (es : List Expr) :
    (expressions es).references s = Expr.listReferences es := rfl

@[simp] theorem references_summarization (kind : SummarizationKind) (es : List Expr) :
    (summarization kind es).references s = Expr.listReferences es := rfl

@[simp] theorem references_integerSum (es : List Expr) (extra : Int64) :
    (integerSum es extra).references s = Expr.listReferences es := rfl

@[simp] theorem references_sortKeys (keys : List SortKey) :
    (sortKeys keys).references s = SortKey.listReferences keys := rfl

@[simp] theorem references_rowsTo (offset fetch : Option Expr) (kind : FetchKind) :
    (rowsTo offset fetch kind).references s =
      Expr.optionReferences offset ++ Expr.optionReferences fetch := rfl

@[simp] theorem references_query (q : Query) : (query q).references s = q.references := rfl

@[simp] theorem references_nestedQuery (q : Query) :
    (nestedQuery q).references s = q.references := rfl

@[simp] theorem references_selections (c : SelectClause) (viaDialect : Bool) :
    (selections c viaDialect).references s = Selection.listReferences c.selections ++
      if viaDialect ∧ s.dialect.strategies.selectList = .rowsTo then
        s.currentSpec.elim [] fun spec =>
          Expr.optionReferences spec.offset ++ Expr.optionReferences spec.fetch
      else [] := rfl

@[simp] theorem references_rowLimit (q : Query) (viaDialect : Bool) :
    (rowLimit q viaDialect).references s =
      Expr.optionReferences q.offset ++ Expr.optionReferences q.fetch := rfl

@[simp] theorem references_upperBound (rule : Option UpperBoundRule) (fetch : Expr)
    (offset : Option Expr) (extra : Int64) :
    (upperBound rule fetch offset extra).references s =
      fetch.references ++ Expr.optionReferences offset := rfl

@[simp] theorem references_comparison (rule : Option ComparisonRule) (l : Expr)
    (op : ComparisonOperator) (r : Expr) :
    (comparison rule l op r).references s = l.references ++ r.references := rfl

@[simp] theorem references_tuples (ls rs : List Expr) (op : ComparisonOperator) (bounded : Bool) :
    (tuples ls rs op bounded).references s =
      Expr.listReferences ls ++ Expr.listReferences rs := rfl

@[simp] theorem references_subqueryTuple (ls : List Expr) (q : Query) (op : ComparisonOperator)
    (quantifier : Quantifier) (negated : Bool) :
    (subqueryTuple ls q op quantifier negated).references s =
      Expr.listReferences ls ++ q.movedReferences := rfl

@[simp] theorem references_selectTuple (rule : Option SelectTupleRule) (ss : List Selection)
    (ls : List Expr) (op : ComparisonOperator) :
    (selectTuple rule ss ls op).references s =
      Selection.listReferences ss ++ Expr.listReferences ls := rfl

@[simp] theorem references_tableGroup (g : TableGroup) :
    (tableGroup g).references s = g.reference.references := rfl

@[simp] theorem references_tableGroupOn (g : TableGroup) (p : Predicate) :
    (tableGroupOn g p).references s = g.reference.references ++ p.references := rfl

@[simp] theorem references_joinedGroup (j : TableJoin) (p : Option Predicate) :
    (joinedGroup j p).references s =
      j.joined.reference.references ++ Predicate.optionReferences p := rfl

@[simp] theorem references_join (j : TableJoin) :
    (join j).references s =
      j.joined.reference.references ++ Predicate.optionReferences j.predicate := rfl

@[simp] theorem references_partitionItem (rule : Option PartitionRule) (e : Expr) :
    (partitionItem rule e).references s = e.references := rfl

end RenderCall

namespace TableJoin

theorem mem_references_levels {t : NamedTable} (js : List TableJoin) :
    t ∈ listReferences js ↔ ∃ j ∈ (JoinTree.levels (forest js)).flatten,
      t ∈ j.joined.reference.references ++ Predicate.optionReferences j.predicate := by
  cases js with
  | nil => simp [listReferences, forest, JoinTree.levels]
  | cons j js =>
      obtain ⟨type, ⟨reference, label, joins⟩, p, lateral⟩ := j
      have hjoins := mem_references_levels (t := t) joins
      have hrest := mem_references_levels (t := t) js
      simp only [listReferences, TableGroup.references, forest, JoinTree.levels,
        Output.Layers.mem_mergeLevels, List.flatten_cons, List.mem_append, List.mem_singleton,
        hjoins, hrest, or_and_right, exists_or, exists_eq_left]
      simp only [or_assoc, or_comm]

end TableJoin

theorem Selection.listReferences_eq (ss : List Selection) :
    listReferences ss = Expr.listReferences (ss.map (·.expr)) := by
  induction ss with
  | nil => rfl
  | cons s ss ih =>
      obtain ⟨e, label⟩ := s
      rw [listReferences, List.map_cons, Expr.listReferences, ih]

theorem TableGroup.mem_references_queue {t : NamedTable} (g : TableGroup) :
    t ∈ g.references ↔ t ∈ g.reference.references ∨ ∃ j ∈ g.queue,
      t ∈ j.joined.reference.references ++ Predicate.optionReferences j.predicate := by
  obtain ⟨reference, label, joins⟩ := g
  rw [references, List.mem_append, TableJoin.mem_references_levels, queue,
    JoinTree.breadthFirst_eq_flatten_levels]

namespace Action

/-- No call has the table in what it renders. -/
abbrev Without (t : NamedTable) (s : Session) (as : List Action) : Prop :=
  AllCalls (fun u c => t ∉ c.references u) s as

/-- The calls are without the table where the condition holds, and with a dialect that keeps all
parts only there. -/
structure Covers (d : Dialect) (t : NamedTable) (s : Session) (as : List Action) (P : Prop) :
    Prop where
  sound : P → Without t s as
  complete : d.KeepsParts → Without t s as → P

theorem Covers.of_iff {d : Dialect} {t : NamedTable} {s : Session} {as : List Action} {P : Prop}
    (h : Without t s as ↔ P) : Covers d t s as P :=
  ⟨h.2, fun _ => h.1⟩

section

variable {t : NamedTable} {s : Session} {d : Dialect}

theorem without_lexicographic {ls rs : List Expr} (op : ComparisonOperator)
    (hlength : ls.length = rs.length) (hne : ls ≠ []) :
    Without t s (lexicographic op ls rs) ↔
      (∀ l ∈ ls, t ∉ l.references) ∧ ∀ r ∈ rs, t ∉ r.references := by
  fun_induction lexicographic op ls rs with
  | case1 l r rs =>
      obtain rfl : rs = [] := by simpa using hlength
      simp
  | case2 l ls r rs hrest ih =>
      have htails := ih (by simpa using hlength) (fun h => hrest h)
      simp [htails]
      tauto
  | case3 ls rs hsingle hmore =>
      obtain rfl | rfl := Comparison.eq_nil_of_unpaired hmore
      · exact absurd rfl hne
      · exact absurd (List.length_eq_zero_iff.1 hlength) hne

theorem forall_mem_zip {α β : Type} {P : α → Prop} {Q : β → Prop} {as : List α} {bs : List β}
    (h : as.length = bs.length) :
    (∀ p ∈ as.zip bs, P p.1 ∧ Q p.2) ↔ (∀ a ∈ as, P a) ∧ ∀ b ∈ bs, Q b := by
  have hleft : (∀ a ∈ as, P a) ↔ ∀ p ∈ as.zip bs, P p.1 := by
    rw [← List.forall_mem_map (f := Prod.fst), List.map_fst_zip h.le]
  have hright : (∀ b ∈ bs, Q b) ↔ ∀ p ∈ as.zip bs, Q p.2 := by
    rw [← List.forall_mem_map (f := Prod.snd), List.map_snd_zip h.ge]
  rw [hleft, hright]
  simp only [forall_and]

theorem without_tuples {ls rs : List Expr} {op : ComparisonOperator} {bounded : Bool}
    (hok : (outputs s (tuples ls rs op bounded)).failure = none) :
    Without t s (tuples ls rs op bounded) ↔
      (∀ l ∈ ls, t ∉ l.references) ∧ ∀ r ∈ rs, t ∉ r.references := by
  obtain ⟨harity, hrest⟩ := Output.failure_append_eq_none.1 hok
  have hlength := (Output.failure_checkArity _ _).1 harity
  have hne : ls ≠ [] := by
    rintro rfl
    cases hrest
  rw [tuples, if_neg (by simpa using hne)]
  simp only [allCalls_cons, calls_emit, true_and, allCalls_parenthesized]
  cases op with
  | equal | notEqual | distinct | notDistinct =>
      rw [← forall_mem_zip hlength]
      simp only [allCalls_separated, List.forall_mem_map, allCalls_plain, allCalls_cons, calls_call,
        allCalls_nil, and_true, RenderCall.references_expression, RenderCall.references_comparison,
        List.mem_append, not_or]
  | _ =>
      cases bounded with
      | true => exact (allCalls_leadingBound ..).trans (without_lexicographic _ hlength hne)
      | false => exact without_lexicographic _ hlength hne

theorem without_intersection {ls rs : List Expr} {op : ComparisonOperator}
    (hok : (outputs s (intersection d ls op rs)).failure = none) :
    Without t s (intersection d ls op rs) ↔
      (∀ l ∈ ls, t ∉ l.references) ∧ ∀ r ∈ rs, t ∉ r.references := by
  rw [intersection] at hok ⊢
  cases hdual : d.capabilities.dualTable with
  | none => simp [hdual] at hok
  | some dual => simp [Expr.mem_listReferences]

theorem without_selectTuple (rule : SelectTupleRule) {columns tuple : List Expr}
    {op : ComparisonOperator}
    (hok : (outputs s (selectTuple d rule columns tuple op)).failure = none) :
    Without t s (selectTuple d rule columns tuple op) ↔
      (∀ l ∈ columns, t ∉ l.references) ∧ ∀ r ∈ tuple, t ∉ r.references := by
  have htuples (bounded : Bool) : Without t s [call (.tuples columns tuple op bounded)] ↔
      (∀ l ∈ columns, t ∉ l.references) ∧ ∀ r ∈ tuple, t ∉ r.references := by
    simp [Expr.mem_listReferences]
  cases rule with
  | standard =>
      rw [selectTuple]
      split
      · simp [Expr.mem_listReferences]
      · exact htuples true
  | emulate => exact htuples true
  | lexicographic => exact htuples false

theorem without_distinctByNullTests (l : Expr) (op : ComparisonOperator) (r : Expr) :
    Without t s (distinctByNullTests l op r) ↔ t ∉ l.references ∧ t ∉ r.references := by
  by_cases hop : op = .distinct
  · simp [distinctByNullTests, hop]
    tauto
  · simp [distinctByNullTests, hop]

/-- A tuple that is compared with a query takes only a part of the query with it. -/
theorem without_subqueryTuple {l : Expr} {q : Query} (op : ComparisonOperator)
    (quantifier : Quantifier) (negated : Bool) (hl : t ∉ l.references) (hq : t ∉ q.references) :
    Without t s [call (.subqueryTuple l.elements q op quantifier negated)] := by
  simp [hl, mt Query.mem_references_of_moved hq]

theorem covers_standard (l : Expr) (op : ComparisonOperator) (r : Expr)
    (hok : (outputs s (standard d l op r)).failure = none) :
    Covers d t s (standard d l op r) (t ∉ l.references ∧ t ∉ r.references) := by
  have hplain : Without t s (plain l op r) ↔ t ∉ l.references ∧ t ∉ r.references :=
    allCalls_plain l op r
  by_cases hscalar : r.isScalar = true
  · rw [standard_scalar d l op hscalar] at hok ⊢
    split at hok
    · cases hok
    · rename_i hl
      rw [if_neg hl]
      split
      · exact .of_iff (without_distinctByNullTests l op r)
      · exact .of_iff hplain
  · cases r with
    | tuple rs =>
        rw [standard] at hok ⊢
        split at hok
        · rename_i hl
          rw [if_pos hl]
          split
          · exact .of_iff (by simp)
          · refine .of_iff ?_
            simp [Expr.references]
        · cases hok
    | subquery q =>
        rw [standard]
        split
        · rename_i hrows
          refine ⟨fun h => without_subqueryTuple op .any false h.1 h.2, fun hkeeps => ?_⟩
          simp [hkeeps.rowValues] at hrows
        · exact .of_iff hplain
    | quantified quantifier q =>
        rw [standard]
        split
        · rename_i hrows
          refine ⟨fun h => without_subqueryTuple op quantifier false h.1 h.2, fun hkeeps => ?_⟩
          simp [hkeeps.quantifiedRowValues] at hrows
        · exact .of_iff hplain
    | _ => exact absurd rfl hscalar

theorem covers_comparison (rule : ComparisonRule) (l : Expr) (op : ComparisonOperator) (r : Expr)
    (hok : (outputs s (comparison d rule l op r)).failure = none) :
    Covers d t s (comparison d rule l op r) (t ∉ l.references ∧ t ∉ r.references) := by
  have helements : (∀ x ∈ l.elements, t ∉ x.references) ∧ (∀ x ∈ r.elements, t ∉ x.references) ↔
      t ∉ l.references ∧ t ∉ r.references := by
    simp [Expr.mem_references_elements (e := l), Expr.mem_references_elements (e := r)]
  cases rule with
  | standard => exact covers_standard l op r hok
  | intersect =>
      rw [comparison] at hok ⊢
      split
      · rename_i hop
        rw [if_pos hop] at hok
        exact .of_iff ((without_intersection hok).trans helements)
      · rename_i hop
        rw [if_neg hop] at hok
        exact covers_standard l op r hok
  | lexicographic =>
      rw [comparison] at hok ⊢
      split
      · exact .of_iff (by simp)
      · rename_i htuples
        rw [if_neg htuples] at hok
        exact covers_standard l op r hok

theorem without_case {branches : List WhenClause} {otherwise : Option Expr}
    (hok : (outputs s (ofExpr d (.case branches otherwise))).failure = none) :
    Without t s (ofExpr d (.case branches otherwise)) ↔
      t ∉ (Expr.case branches otherwise).references := by
  rw [ofExpr] at hok ⊢
  split at hok
  · cases hok
  · rename_i hbranches
    rw [if_neg hbranches]
    simp [Expr.references, WhenClause.mem_listReferences, Expr.mem_optionReferences]

theorem without_windowed (f : Expr) (items : List Expr) (keys : List SortKey)
    (frame : Option WindowFrame) :
    Without t s (ofExpr d (.windowed f items keys frame)) ↔
      t ∉ (Expr.windowed f items keys frame).references := by
  have hitems : (∀ as ∈ (if items.isEmpty then [] else [text "partition by " ::
      separated ", " (items.map fun e => [call (.partitionItem none e)])]), Without t s as) ↔
      t ∉ Expr.listReferences items := by
    cases items <;> simp [Expr.listReferences, Expr.mem_listReferences]
  have hkeys : (∀ as ∈ (if keys.isEmpty then [] else [[text "order by ", call (.sortKeys keys)]]),
      Without t s as) ↔ t ∉ SortKey.listReferences keys := by
    cases keys <;> simp [SortKey.listReferences]
  simp only [ofExpr, allCalls_append, allCalls_cons, calls_expression, calls_text, allCalls_nil,
    allCalls_parenthesized, allCalls_separated, List.forall_mem_append, hitems, hkeys]
  simp [Expr.references]

theorem without_ofExpr {e : Expr} (hok : (outputs s (ofExpr d e)).failure = none) :
    Without t s (ofExpr d e) ↔ t ∉ e.references := by
  cases e with
  | column | literal | parameter | star => simp [ofExpr, Expr.references]
  | tuple | function | summarization | binary | negate | subquery | quantified | cast =>
      simp [ofExpr, Expr.references]
  | «case» => exact without_case hok
  | windowed f items keys frame => exact without_windowed f items keys frame

theorem without_junction (nature : JunctionNature) (members : List Predicate) :
    Without t s (ofPredicate d (.junction nature members)) ↔
      ∀ p ∈ members, t ∉ p.references := by
  rcases members with _ | ⟨p, _ | ⟨q, ps⟩⟩ <;> simp [ofPredicate]

theorem without_nullCheck (e : Expr) (negated : Bool) :
    Without t s (ofPredicate d (.nullCheck e negated)) ↔ t ∉ e.references := by
  rw [ofPredicate]
  split
  · rw [Expr.mem_references_elements]
    simp
  · simp

theorem without_inList {e : Expr} {items : List Expr} (negated : Bool) (hne : items ≠ []) :
    Without t s (ofPredicate d (.inList e items negated)) ↔
      t ∉ e.references ∧ ∀ i ∈ items, t ∉ i.references := by
  rw [ofPredicate, if_neg (by simpa using hne)]
  simp only [allCalls_append, allCalls_when, allCalls_map, calls_emit, implies_true, true_and]
  split
  · obtain ⟨i, hi⟩ := List.exists_mem_of_ne_nil items hne
    simp only [allCalls_append, allCalls_when, allCalls_cons, calls_text, allCalls_nil, and_true,
      implies_true, true_and, allCalls_parenthesized, allCalls_separated, List.forall_mem_map,
      calls_call, RenderCall.references_tuples, Expr.listReferences_elements, List.mem_append,
      not_or, forall_and]
    exact and_congr_left fun _ => ⟨fun h => h i hi, fun h _ _ => h⟩
  · simp [Expr.mem_listReferences]

theorem covers_inSubquery (e : Expr) (q : Query) (negated : Bool) :
    Covers d t s (ofPredicate d (.inSubquery e q negated))
      (t ∉ e.references ∧ t ∉ q.references) := by
  rw [ofPredicate]
  split
  · rename_i hrows
    refine ⟨fun h => without_subqueryTuple .equal .any negated h.1 h.2, fun hkeeps => ?_⟩
    simp [hkeeps.quantifiedRowValues] at hrows
  · exact .of_iff (by simp)

theorem without_between (e low high : Expr) (negated : Bool) :
    Without t s (ofPredicate d (.between e low high negated)) ↔
      t ∉ e.references ∧ t ∉ low.references ∧ t ∉ high.references := by
  rw [ofPredicate]
  split
  · simp
    tauto
  · simp

theorem covers_ofPredicate {p : Predicate}
    (hok : (outputs s (ofPredicate d p)).failure = none) :
    Covers d t s (ofPredicate d p) (t ∉ p.references) := by
  cases p with
  | junction nature members =>
      refine .of_iff ((without_junction nature members).trans ?_)
      simp [Predicate.references, Predicate.mem_listReferences]
  | nullCheck e negated => exact .of_iff (without_nullCheck e negated)
  | inList e items negated =>
      cases items with
      | nil => exact .of_iff (by simp [ofPredicate, Predicate.references])
      | cons i items =>
          refine .of_iff ((without_inList negated (List.cons_ne_nil i items)).trans ?_)
          simp [Predicate.references, Expr.mem_listReferences]
  | inSubquery e q negated =>
      have hcovers := covers_inSubquery (d := d) (t := t) (s := s) e q negated
      simpa [Predicate.references] using hcovers
  | between e low high negated =>
      refine .of_iff ((without_between e low high negated).trans ?_)
      simp [Predicate.references]
  | like e pattern escape negated =>
      cases escape <;> exact .of_iff (by simp [ofPredicate, Predicate.references])
  | comparison | negated | «exists» | boolean =>
      exact .of_iff (by simp [ofPredicate, Predicate.references])

theorem without_sortKeys (keys : List SortKey) :
    Without t s (separated ", " (keys.map (sortKey d))) ↔ t ∉ SortKey.listReferences keys := by
  have hkey (k : SortKey) : Without t s (sortKey d k) ↔ t ∉ k.expr.references := by
    obtain ⟨e, direction, nulls⟩ := k
    cases nulls with
    | none => simp [sortKey]
    | some nulls => cases hnative : d.capabilities.nullPrecedence <;> simp [sortKey, hnative]
  simp [SortKey.mem_listReferences, hkey]

theorem without_orderBy (keys : List SortKey) :
    Without t s (orderBy keys) ↔ t ∉ SortKey.listReferences keys := by
  cases keys <;> simp [orderBy, SortKey.listReferences]

theorem without_partitionItem {rule : PartitionRule} {e : Expr}
    (hok : (outputs s (partitionItem rule e)).failure = none) :
    Without t s (partitionItem rule e) ↔ t ∉ e.references := by
  rw [partitionItem.eq_def] at hok ⊢
  split
  · simp [Expr.references]
  · simp [Expr.references]
  · cases hok
  · simp

/-- A predicate that has no members is left out, and no table with it. -/
theorem without_given {p : Predicate} {as : List Action} (h : Without t s as ↔ t ∉ p.references) :
    Without t s (if p.isEmpty then [] else as) ↔ t ∉ p.references := by
  split
  · rename_i hempty
    simp [Predicate.references_of_isEmpty hempty]
  · exact h

theorem without_condition (keyword : String) (p : Option Predicate) :
    Without t s (condition keyword p) ↔ t ∉ Predicate.optionReferences p := by
  cases p with
  | none => simp [condition, Predicate.optionReferences]
  | some p => exact without_given (by simp)

theorem without_moved (p : Option Predicate) :
    Without t s (moved p) ↔ t ∉ Predicate.optionReferences p := by
  cases p with
  | none => simp [moved, Predicate.optionReferences]
  | some p => exact without_given (by simp)

theorem without_grouping (items : List Expr) :
    Without t s (grouping items) ↔ t ∉ Expr.listReferences items := by
  cases items <;> simp [grouping, Expr.listReferences, Expr.mem_listReferences]

theorem without_tables (roots : List TableGroup) :
    Without t s (tables d roots) ↔ t ∉ TableGroup.listReferences roots := by
  cases roots with
  | nil => simp [tables, TableGroup.listReferences]
  | cons g gs =>
      simp [tables, TableGroup.listReferences, TableGroup.mem_listReferences,
        TableGroup.mem_references_queue]

theorem references_of_number {e : Expr} {n : Int64} (h : (Session.limitOf d e).number = some n) :
    e.references = [] := by
  rw [Session.limitOf, Limit.ofExpr.eq_def] at h
  split at h
  · rfl
  · rfl
  · cases h

/-- Only numbers are added up. -/
theorem listReferences_of_integerSum {terms : List Expr} {total : Int} {isParameter : Bool}
    (hok : (RowLimit.integerSum.go (terms.map (Session.limitOf d)) total
      isParameter).failure = none) : Expr.listReferences terms = [] := by
  induction terms generalizing total isParameter with
  | nil => rfl
  | cons e es ih =>
      rw [List.map_cons, RowLimit.integerSum.go] at hok
      split at hok
      · cases hok
      · rename_i n hn
        dsimp only at hok
        split at hok
        · rw [Expr.listReferences, references_of_number hn, ih hok, List.nil_append]
        · cases hok

theorem without_rowsTo {offset fetch : Option Expr} {kind : FetchKind}
    (hok : (outputs s (rowsTo offset fetch kind)).failure = none) :
    Without t s (rowsTo offset fetch kind) ↔
      t ∉ Expr.optionReferences offset ++ Expr.optionReferences fetch := by
  rw [rowsTo.eq_def] at hok ⊢
  split
  · cases offset <;> cases fetch <;> simp_all [Expr.optionReferences]
  rename_i hsome
  rw [if_neg hsome] at hok
  split
  · simp_all
  cases offset <;> cases fetch <;> simp [Expr.optionReferences, Expr.listReferences]
  tauto

theorem covers_trailing (offset fetch : Option Expr) (kind : FetchKind) :
    Covers d t s (trailing d offset fetch kind)
      (t ∉ Expr.optionReferences offset ++ Expr.optionReferences fetch) := by
  rw [trailing.eq_def]
  cases hrule : d.capabilities.rowLimit with
  | rowsTo => exact ⟨fun _ => trivial, fun hkeeps => absurd hrule hkeeps.trailing⟩
  | offsetFetch =>
      refine .of_iff ?_
      cases offset <;> cases fetch <;> simp [Expr.optionReferences]
  | limitOffset =>
      refine .of_iff ?_
      cases offset <;> cases fetch <;> simp [Expr.optionReferences, and_comm]

theorem without_upperBound {rule : UpperBoundRule} {fetch : Expr} {offset : Option Expr}
    (extra : Int64) :
    Without t s (upperBound rule fetch offset extra) ↔
      t ∉ fetch.references ++ Expr.optionReferences offset := by
  cases rule <;> cases offset <;>
    simp [upperBound, Expr.listReferences, Expr.optionReferences]

theorem without_derived (label : Option String) (q : Query) (columns : List String) :
    Without t s (tableReference label (.derived q columns)) ↔ t ∉ q.references := by
  simp [tableReference]

/-- A cross join with a condition is refused. -/
theorem optionReferences_of_joinHead {p : Option Predicate} {lateral : Bool}
    (hok : (Render.joinHead d .cross p lateral).failure = none) :
    Predicate.optionReferences p = [] := by
  have hcheck : (Render.checkCrossJoin p).failure = none := by
    rw [Render.joinHead.eq_def] at hok
    split at hok
    · exact (Output.failure_append_eq_none.1 hok).2
    · exact (Output.failure_append_eq_none.1 (Output.failure_append_eq_none.1 hok).1).1
  cases p with
  | none => rfl
  | some p =>
      exact Predicate.references_of_isEmpty ((Output.failure_require_eq_none _ _).1 hcheck)

theorem without_join {j : TableJoin} (hok : (outputs s (join d j)).failure = none) :
    Without t s (join d j) ↔
      t ∉ j.joined.reference.references ++ Predicate.optionReferences j.predicate := by
  have hhead := (Output.failure_append_eq_none.1 hok).1
  have hcondition : Predicate.optionReferences (j.condition d) =
      Predicate.optionReferences j.predicate := by
    obtain ⟨type, joined, p, lateral⟩ := j
    rw [TableJoin.condition]
    split
    · rename_i hcross
      cases hcross
      exact (optionReferences_of_joinHead hhead).symm
    · cases p with
      | none =>
          dsimp only [Option.filter]
          split <;> rfl
      | some p =>
          cases hempty : p.isEmpty with
          | false => simp [Option.filter, hempty]
          | true =>
              simp only [Option.filter, hempty, Predicate.optionReferences,
                Predicate.references_of_isEmpty hempty]
              simp only [Bool.not_true, Bool.false_eq_true, if_false]
              split <;> rfl
  simp [join, hcondition]

theorem without_selections (clause : SelectClause) (viaDialect : Bool) :
    Without t s (selections s clause viaDialect) ↔
      t ∉ (RenderCall.selections clause viaDialect).references s := by
  have hclause : Without t s (selections s clause false) ↔
      t ∉ Selection.listReferences clause.selections := by
    rw [selections, if_neg Bool.false_ne_true]
    refine (allCalls_append _ _).trans ?_
    split
    · rename_i hempty
      simp [List.isEmpty_iff.1 hempty, Selection.listReferences]
    · simp [Selection.mem_listReferences]
  cases viaDialect with
  | false => simpa using hclause
  | true =>
      rw [selections, if_pos rfl]
      cases hrule : s.dialect.strategies.selectList with
      | standard => simp [hrule]
      | rowsTo =>
          cases hspec : s.currentSpec with
          | none => simp [hrule, hspec]
          | some spec =>
              simp [hrule, hspec]
              tauto

theorem without_querySpec (spec : QuerySpec) (root : Bool) :
    Without t (s.push (.spec spec) root) (querySpec (s.push (.spec spec) root) spec) ↔
      t ∉ spec.references := by
  obtain ⟨distinct, items, roots, restriction, groupBy, having, keys, offset, fetch, kind⟩ := spec
  simp [querySpec, without_tables, without_condition, without_grouping, without_orderBy,
    QuerySpec.references, Query.offset, Query.fetch, Session.push, Session.currentSpec]
  tauto

theorem without_member (q : Query) : Without t s (member d q) ↔ t ∉ q.references := by
  rw [member]
  split
  · split <;> simp
  · simp

theorem without_membersJoined (operator : Output) (rows : List (List Action)) :
    Without t s (membersJoined operator rows) ↔ ∀ as ∈ rows, Without t s as := by
  fun_induction membersJoined operator rows with
  | case1 => simp
  | case2 as => simp
  | case3 as bs rest ih => simp [ih]

theorem without_queryGroup (g : QueryGroup) :
    Without t s (queryGroup d g) ↔ t ∉ g.references := by
  obtain ⟨operator, members, keys, offset, fetch, kind⟩ := g
  rw [queryGroup]
  split <;>
    simp [without_membersJoined, without_orderBy, without_member, QueryGroup.references,
      Query.mem_listReferences, Query.offset, Query.fetch]
  tauto

theorem without_query (root : Bool) (q : Query) :
    Without t s (query s root q) ↔ t ∉ q.references := by
  cases q with
  | spec spec => simpa [query, Query.references] using without_querySpec (t := t) (s := s) spec root
  | group g =>
      simpa [query, Query.references] using
        without_queryGroup (t := t) (s := s.push (.group g) root) (d := s.dialect) g

theorem without_subqueryTupleOf {ls : List Expr} {q : Query} {op : ComparisonOperator}
    {quantifier : Quantifier} {negated : Bool}
    (hok : (outputs s (subqueryTuple d ls q op quantifier negated)).failure = none) :
    Without t s (subqueryTuple d ls q op quantifier negated) ↔
      t ∉ Expr.listReferences ls ++ q.movedReferences := by
  cases q with
  | group g => cases hok
  | spec spec =>
      rw [subqueryTuple] at hok ⊢
      split at hok
      · cases hok
      · rename_i hmovable
        rw [if_neg hmovable]
        simp [without_tables, without_moved, Query.movedReferences]
        tauto

theorem without_expressions (es : List Expr) :
    Without t s (separated ", " (es.map fun e => [expression e])) ↔
      t ∉ Expr.listReferences es := by
  simp [Expr.mem_listReferences]

/-- Where a call does not name a table itself, its calls name what is named in it. -/
theorem covers_ofCall {c : RenderCall} (hok : (s.output c).failure = none)
    (hnamed : c.named? ≠ some t) :
    Covers s.dialect t s (ofCall s c) (t ∉ c.references s) := by
  have hends : (outputs s (ofCall s c)).failure = none := by rwa [outputs_ofCall]
  cases c with
  | text | parameter | gap | lockStrategy | searchClause | cycleClause | arity | crossJoin =>
      exact .of_iff (by simp [ofCall, RenderCall.references])
  | integerSum terms extra =>
      have hterms : Expr.listReferences terms = [] := listReferences_of_integerSum hok
      exact .of_iff (by simp [ofCall, hterms])
  | expression e => exact .of_iff (without_ofExpr hends)
  | predicate p => exact covers_ofPredicate hends
  | expressions es => exact .of_iff (without_expressions es)
  | summarization kind groupings =>
      change (outputs s (if s.dialect.capabilities.summarization = .unsupported then _ else
        _)).failure = none at hends
      change Covers _ t s (if s.dialect.capabilities.summarization = .unsupported then _ else _) _
      split at hends
      · cases hends
      · rename_i hsupported
        rw [if_neg hsupported]
        exact .of_iff (by simp)
  | sortKeys keys => exact .of_iff (without_sortKeys keys)
  | rowsTo offset fetch kind => exact .of_iff (without_rowsTo hends)
  | query q => exact .of_iff (without_query _ q)
  | nestedQuery q => exact .of_iff (without_query _ q)
  | selections clause viaDialect => exact .of_iff (without_selections clause viaDialect)
  | rowLimit q viaDialect =>
      change Covers _ t s (if viaDialect && s.dialect.strategies.rowLimit == .skip then [] else _) _
      split
      · rename_i hskip
        refine ⟨fun _ => trivial, fun hkeeps => ?_⟩
        simp [hkeeps.rowLimit] at hskip
      · exact covers_trailing _ _ _
  | upperBound rule fetch offset extra => exact .of_iff (without_upperBound extra)
  | comparison rule l op r =>
      rw [RenderCall.references_comparison, List.mem_append, not_or]
      cases rule with
      | none => exact covers_comparison _ l op r hends
      | some rule =>
          cases rule with
          | standard => exact covers_standard l op r hends
          | intersect => exact covers_comparison .intersect l op r hends
          | lexicographic => exact covers_comparison _ l op r hends
  | tuples ls rs op bounded =>
      refine .of_iff ((without_tuples hends).trans ?_)
      simp [Expr.mem_listReferences]
  | subqueryTuple ls q op quantifier negated =>
      exact .of_iff (without_subqueryTupleOf hends)
  | selectTuple rule ss ls op =>
      rw [RenderCall.references_selectTuple, Selection.listReferences_eq, List.mem_append, not_or,
        Expr.mem_listReferences, Expr.mem_listReferences]
      push Not
      cases rule with
      | none => exact .of_iff (without_selectTuple _ hends)
      | some rule =>
          cases rule with
          | standard => exact .of_iff (without_selectTuple .standard hends)
          | emulate => exact .of_iff (without_selectTuple (d := s.dialect) .emulate hends)
          | lexicographic => exact .of_iff (without_selectTuple _ hends)
  | tableGroup g =>
      obtain ⟨reference, label, joins⟩ := g
      cases reference with
      | named u =>
          have hne : t ≠ u := fun h => hnamed (congrArg some h.symm)
          exact .of_iff (by simp [ofCall, tableReference, TableReference.references, hne])
      | derived q columns => exact .of_iff (without_derived label q columns)
  | tableGroupOn g p =>
      obtain ⟨reference, label, joins⟩ := g
      refine .of_iff ((allCalls_append _ _).trans ?_)
      cases reference with
      | named u =>
          have hne : t ≠ u := fun h => hnamed (congrArg some h.symm)
          simp [tableReference, TableReference.references, hne]
      | derived q columns => simp [without_derived, TableReference.references]
  | joinedGroup j p =>
      cases p <;> exact .of_iff (by simp [ofCall, Predicate.optionReferences])
  | join j => exact .of_iff (without_join hends)
  | partitionItem rule e => exact .of_iff (without_partitionItem hends)

end

mutual

theorem dialect_of_mem_calls {s : Session} {a : Action} {x : Session × RenderCall}
    (h : x ∈ calls s a) : x.1.dialect = s.dialect := by
  match a with
  | .emit o => cases h
  | .call c =>
      obtain rfl := List.mem_singleton.1 h
      rfl
  | .within q root as => exact dialect_of_mem_callsAll (s := s.push q root) h

theorem dialect_of_mem_callsAll {s : Session} {as : List Action} {x : Session × RenderCall}
    (h : x ∈ callsAll s as) : x.1.dialect = s.dialect := by
  match as with
  | [] => cases h
  | a :: as =>
      rcases List.mem_append.1 h with h | h
      · exact dialect_of_mem_calls h
      · exact dialect_of_mem_callsAll h

end

end Action

namespace Session

open DialectSql.Action (ofCall callsAll)

variable {s : Session} {c : RenderCall} {t : NamedTable}

theorem ends_of_mem_callsAll (hok : (s.output c).failure = none) {x : Session × RenderCall}
    (h : x ∈ callsAll s (ofCall s c)) : (x.1.output x.2).failure = none :=
  (Action.allCalls_iff_forall s _).1
    (Action.failure_allCalls (by rwa [Action.outputs_ofCall])) x h

theorem mem_references_of_named (h : c.named? = some t) : t ∈ c.references s := by
  cases c with
  | tableGroup g | tableGroupOn g p =>
      obtain ⟨reference, label, joins⟩ := g
      cases reference with
      | named u =>
          cases h
          simp [TableReference.references]
      | derived q columns => cases h
  | _ => cases h

/-- A table that is named on the way stands in what was to be rendered. -/
theorem mem_references_of_reaches {b : RenderCall} (h : s.Reaches c b)
    (hok : (s.output c).failure = none) (hb : b.named? = some t) : t ∈ c.references s := by
  induction h with
  | here => exact mem_references_of_named hb
  | @through s u c b e call rest ih =>
      by_cases hnamed : c.named? = some t
      · exact mem_references_of_named hnamed
      · by_contra hmem
        have hwithout := (Action.covers_ofCall hok hnamed).sound hmem
        have hrest := ih (ends_of_mem_callsAll hok call) hb
        exact (Action.allCalls_iff_forall s _).1 hwithout (u, b) call hrest

/-- With a dialect that keeps all parts, each table that stands in what is to be rendered is named
on the way. -/
theorem reaches_of_mem_references (hkeeps : s.dialect.KeepsParts)
    (hok : (s.output c).failure = none) (h : t ∈ c.references s) :
    ∃ b, s.Reaches c b ∧ b.named? = some t := by
  induction hw : c.weight s using Nat.strong_induction_on generalizing s c with
  | h w ih =>
      subst hw
      by_cases hnamed : c.named? = some t
      · exact ⟨c, .here s c, hnamed⟩
      · have hwithout := mt ((Action.covers_ofCall hok hnamed).complete hkeeps) (not_not.2 h)
        obtain ⟨x, hx, hmem⟩ : ∃ x ∈ callsAll s (ofCall s c), t ∈ x.2.references x.1 := by
          by_contra hnone
          push Not at hnone
          exact hwithout ((Action.allCalls_iff_forall s _).2 hnone)
        have hsmaller := (Action.allCalls_iff_forall _ _).1 (Action.below_ofCall s c) x hx
        have hdialect := Action.dialect_of_mem_callsAll hx
        obtain ⟨b, hreach, hb⟩ :=
          ih _ hsmaller (by rwa [hdialect]) (ends_of_mem_callsAll hok hx) hmem rfl
        exact ⟨b, .through hx hreach, hb⟩

end Session

end DialectSql
