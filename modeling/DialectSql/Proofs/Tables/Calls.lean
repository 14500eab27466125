import DialectSql.Proofs.Tables.Emission

namespace DialectSql

/-- The table that a call names itself. -/
def RenderCall.named? : RenderCall → Option NamedTable
  | .tableGroup ⟨.named t, _, _⟩ | .tableGroupOn ⟨.named t, _, _⟩ _ => some t
  | _ => none

namespace Action

variable (d : Dialect)

theorem tableless_intersection (ls : List Expr) (op : ComparisonOperator) (rs : List Expr) :
    AllTableless (intersection d ls op rs) := by
  rw [intersection]
  cases d.capabilities.dualTable <;> simp

theorem tableless_standard (l : Expr) (op : ComparisonOperator) (r : Expr) :
    AllTableless (standard d l op r) := by
  rw [standard.eq_def]
  split
  · split <;> simp
  · split <;> simp
  · split
    · split <;> simp
    · simp
  · split
    · simp
    · split <;> simp

theorem tableless_comparison (rule : ComparisonRule) (l : Expr) (op : ComparisonOperator)
    (r : Expr) : AllTableless (comparison d rule l op r) := by
  rw [comparison.eq_def]
  split
  · exact tableless_standard d l op r
  · split
    · exact tableless_intersection d _ op _
    · exact tableless_standard d l op r
  · split
    · simp
    · exact tableless_standard d l op r

theorem tableless_tuples (ls rs : List Expr) (op : ComparisonOperator) (bounded : Bool) :
    AllTableless (tuples ls rs op bounded) := by
  have hplains : ∀ as ∈ (ls.zip rs).map fun p => plain p.1 op p.2, AllTableless as :=
    List.forall_mem_map.2 fun p _ => allTableless_plain _ _ _
  have hcomparisons : ∀ as ∈ (ls.zip rs).map fun p => [call (.comparison none p.1 op p.2)],
      AllTableless as := List.forall_mem_map.2 fun p _ => ⟨trivial, trivial⟩
  refine ⟨.checkArity _ _, ?_⟩
  split
  · exact ⟨.fail _, trivial⟩
  · refine (allTableless_parenthesized _).2 ?_
    split
    · exact (allTableless_separated _ _).2 hplains
    · exact (allTableless_separated _ _).2 hplains
    · exact (allTableless_separated _ _).2 hcomparisons
    · exact (allTableless_separated _ _).2 hcomparisons
    · cases bounded
      · exact allTableless_lexicographic _ _ _
      · exact allTableless_leadingBound _ _ _

theorem tableless_selectTuple (rule : SelectTupleRule) (columns tuple : List Expr)
    (op : ComparisonOperator) : AllTableless (selectTuple d rule columns tuple op) := by
  cases rule <;> rw [selectTuple]
  · split <;> simp
  · simp
  · simp

theorem tableless_ofExpr (e : Expr) : AllTableless (ofExpr d e) := by
  cases e with
  | column qualifier name =>
      exact ⟨Output.Tableless.qualified qualifier (.name name), trivial⟩
  | star qualifier => exact ⟨Output.Tableless.qualified qualifier (.word "*"), trivial⟩
  | literal v => exact ⟨Output.Tableless.literal d v, trivial⟩
  | parameter slot => exact ⟨(Output.tableless_ofPieces _).2 (by simp), trivial⟩
  | «case» branches otherwise =>
      rw [ofExpr]
      split <;> simp
  | windowed f items keys frame =>
      simp only [ofExpr, allTableless_append, allTableless_cons, tableless_expression,
        tableless_text, allTableless_nil, allTableless_parenthesized, allTableless_separated,
        List.forall_mem_append, List.forall_mem_map, true_and, and_true, implies_true]
      constructor <;> split <;> simp
  | tuple | summarization | binary | negate | function | cast | subquery | quantified =>
      simp [ofExpr]

theorem tableless_ofPredicate (p : Predicate) : AllTableless (ofPredicate d p) := by
  cases p with
  | junction nature members =>
      rcases members with _ | ⟨p, _ | ⟨q, ps⟩⟩ <;> simp [ofPredicate]
  | nullCheck e negated =>
      rw [ofPredicate]
      split <;> simp
  | inList e items negated =>
      rw [ofPredicate]
      split
      · simp
      · simp only [allTableless_append, allTableless_when, allTableless_map, tableless_emit,
          Output.Tableless.checkArity, implies_true, true_and]
        split <;> simp
  | inSubquery e q negated =>
      rw [ofPredicate]
      split <;> simp
  | between e low high negated =>
      rw [ofPredicate]
      split <;> simp
  | like e pattern escape negated =>
      cases escape <;> simp [ofPredicate]
  | comparison | negated | «exists» | boolean => simp [ofPredicate]

theorem tableless_sortKey (k : SortKey) : AllTableless (sortKey d k) := by
  obtain ⟨e, direction, nulls⟩ := k
  cases nulls with
  | none => simp [sortKey]
  | some nulls =>
      rw [sortKey.eq_def]
      dsimp only
      split <;> simp

theorem tableless_orderBy (keys : List SortKey) : AllTableless (orderBy keys) := by
  rw [orderBy]
  split <;> simp

theorem tableless_partitionItem (rule : PartitionRule) (e : Expr) :
    AllTableless (partitionItem rule e) := by
  rw [partitionItem.eq_def]
  split
  · simp
  · simp
  · simp
  · simp

theorem tableless_rowsTo (offset fetch : Option Expr) (kind : FetchKind) :
    AllTableless (rowsTo offset fetch kind) := by
  rw [rowsTo.eq_def]
  split
  · simp
  split
  · simp
  · cases offset <;> cases fetch <;> simp

theorem tableless_trailing (offset fetch : Option Expr) (kind : FetchKind) :
    AllTableless (trailing d offset fetch kind) := by
  rw [trailing.eq_def]
  dsimp only
  split
  · simp
  · cases offset <;> cases fetch <;> simp
  · simp

theorem tableless_upperBound (rule : UpperBoundRule) (fetch : Expr) (offset : Option Expr)
    (extra : Int64) : AllTableless (upperBound rule fetch offset extra) := by
  cases rule with
  | standard =>
      have hextra := Output.Tableless.when (extra != 0)
        ((Output.Tableless.word " + ").append (b := .ofPieces [.plain (toString extra.toInt)])
          (by simp))
      exact ⟨trivial, (allTableless_append _ _).2 ⟨by simp, hextra, trivial⟩⟩
  | singleParameter => exact ⟨trivial, trivial⟩

theorem tableless_derived (label : Option String) (q : Query) (columns : List String) :
    AllTableless (tableReference label (.derived q columns)) := by
  have hcolumns := Output.Tableless.when (!columns.isEmpty)
    ((Output.Tableless.word " ").append (Output.Tableless.nameList columns).parenthesized)
  simp [tableReference, hcolumns]

theorem tableless_join (j : TableJoin) : AllTableless (join d j) := by
  simp [join, Render.tableless_joinHead]

theorem tableless_tables (roots : List TableGroup) : AllTableless (tables d roots) := by
  rw [tables]
  split <;> simp [Render.tableless_missingFrom]

theorem tableless_condition (keyword : String) (p : Option Predicate) :
    AllTableless (condition keyword p) := by
  rw [condition.eq_def]
  split
  · split <;> simp
  · simp

theorem tableless_grouping (items : List Expr) : AllTableless (grouping items) := by
  rw [grouping]
  split <;> simp

theorem tableless_querySpec (s : Session) (spec : QuerySpec) :
    AllTableless (querySpec s spec) := by
  simp [querySpec, tableless_tables, tableless_condition, tableless_grouping, tableless_orderBy,
    Render.tableless_lockOf]

theorem tableless_member (q : Query) : AllTableless (member d q) := by
  rw [member]
  split
  · split <;> simp
  · simp

theorem tableless_membersJoined {operator : Output} (hop : operator.Tableless)
    {rows : List (List Action)} (hrows : ∀ as ∈ rows, AllTableless as) :
    AllTableless (membersJoined operator rows) := by
  fun_induction membersJoined operator rows with
  | case1 => trivial
  | case2 as => exact hrows as (by simp)
  | case3 as bs rest ih =>
      have hrest := ih fun cs hcs => hrows cs (List.mem_cons_of_mem as hcs)
      simp [hrows as (by simp), hop, hrest]

theorem tableless_queryGroup (g : QueryGroup) : AllTableless (queryGroup d g) := by
  obtain ⟨op, members, keys, offset, fetch, kind⟩ := g
  have hbody := tableless_membersJoined (Render.tableless_setOperatorText d op)
    (List.forall_mem_map.2 fun q (_ : q ∈ members) => tableless_member d q)
  rw [queryGroup]
  refine ⟨Render.tableless_checkSetOperator d op, ?_⟩
  split <;> simp [hbody, tableless_orderBy]

theorem tableless_query (s : Session) (root : Bool) (q : Query) :
    AllTableless (query s root q) := by
  cases q with
  | spec spec => exact ⟨tableless_querySpec _ spec, trivial⟩
  | group g => exact ⟨.require _ _, tableless_queryGroup _ g, trivial⟩

theorem tableless_moved (p : Option Predicate) : AllTableless (moved p) := by
  rw [moved.eq_def]
  split
  · split <;> simp
  · simp

theorem tableless_subqueryTuple (ls : List Expr) (q : Query) (op : ComparisonOperator)
    (quantifier : Quantifier) (negated : Bool) :
    AllTableless (subqueryTuple d ls q op quantifier negated) := by
  cases q with
  | group g => simp [subqueryTuple]
  | spec spec =>
      rw [subqueryTuple]
      split
      · simp
      · simp [tableless_tables, tableless_moved]

theorem tableless_selections (s : Session) (clause : SelectClause) (viaDialect : Bool) :
    AllTableless (selections s clause viaDialect) := by
  rw [selections]
  split
  · rw [allTableless_append]
    refine ⟨?_, by simp⟩
    split <;> simp
  · rw [allTableless_append]
    refine ⟨by simp, ?_⟩
    split <;> simp

/-- Of the tables that are named in the text of a call, only one is named by the call itself. -/
theorem tableless_ofCall (s : Session) {c : RenderCall} (h : c.named? = none) :
    AllTableless (ofCall s c) := by
  cases c with
  | text t => exact ⟨.word t, trivial⟩
  | parameter slot => exact ⟨(Output.tableless_ofPieces _).2 (by simp), trivial⟩
  | gap g => exact ⟨(Output.tableless_ofPieces _).2 (by simp), trivial⟩
  | integerSum terms extra => exact ⟨Render.tableless_integerSum _ extra, trivial⟩
  | lockStrategy rule spec followOn =>
      refine ⟨?_, trivial⟩
      change (s.output (.lockStrategy rule spec followOn)).Tableless
      simp only [Session.output]
      split <;> simp
  | searchClause rule cte => exact ⟨Render.tableless_searchClause _ _ _, trivial⟩
  | cycleClause rule cte => exact ⟨Render.tableless_cycleClause _ _ _ _, trivial⟩
  | arity lhs rhs => exact ⟨.checkArity _ _, trivial⟩
  | crossJoin j => exact ⟨.require _ _, trivial⟩
  | expression e => exact tableless_ofExpr _ e
  | predicate p => exact tableless_ofPredicate _ p
  | expressions es => simp [ofCall]
  | summarization kind groupings =>
      change AllTableless (if s.dialect.capabilities.summarization = .unsupported then _ else _)
      split <;> simp
  | sortKeys keys =>
      exact (allTableless_separated _ _).2 (List.forall_mem_map.2 fun k _ => tableless_sortKey _ k)
  | rowsTo offset fetch kind => exact tableless_rowsTo offset fetch kind
  | query q => exact tableless_query s _ q
  | nestedQuery q => exact tableless_query s false q
  | selections clause viaDialect => exact tableless_selections s clause viaDialect
  | rowLimit q viaDialect =>
      change AllTableless (if viaDialect && s.dialect.strategies.rowLimit == .skip then [] else _)
      split
      · trivial
      · exact tableless_trailing _ _ _ _
  | upperBound rule fetch offset extra => exact tableless_upperBound _ fetch offset extra
  | comparison rule l op r =>
      cases rule with
      | none => exact tableless_comparison _ _ l op r
      | some rule =>
          cases rule with
          | standard => exact tableless_standard _ l op r
          | intersect => exact tableless_comparison _ .intersect l op r
          | lexicographic => exact tableless_comparison _ _ l op r
  | tuples ls rs op bounded => exact tableless_tuples ls rs op bounded
  | subqueryTuple ls q op quantifier negated =>
      exact tableless_subqueryTuple _ ls q op quantifier negated
  | selectTuple rule ss ls op =>
      cases rule with
      | none => exact tableless_selectTuple s.dialect _ _ ls op
      | some rule =>
          cases rule with
          | standard => exact tableless_selectTuple s.dialect .standard _ ls op
          | emulate => exact tableless_selectTuple s.dialect .emulate _ ls op
          | lexicographic => exact tableless_selectTuple s.dialect _ _ ls op
  | tableGroup g =>
      obtain ⟨reference, label, joins⟩ := g
      cases reference with
      | named t => cases h
      | derived q columns => exact tableless_derived label q columns
  | tableGroupOn g p =>
      obtain ⟨reference, label, joins⟩ := g
      cases reference with
      | named t => cases h
      | derived q columns =>
          exact (allTableless_append _ _).2 ⟨tableless_derived label q columns, by simp⟩
  | joinedGroup j p => cases p <;> exact ⟨trivial, trivial⟩
  | join j => exact tableless_join _ j
  | partitionItem rule e => exact tableless_partitionItem _ e

mutual

/-- The calls of an action, each with the session where it is made. -/
def calls : Session → Action → List (Session × RenderCall)
  | _, .emit _ => []
  | s, .call c => [(s, c)]
  | s, .within q root actions => callsAll (s.push q root) actions

def callsAll : Session → List Action → List (Session × RenderCall)
  | _, [] => []
  | s, a :: as => calls s a ++ callsAll s as

end

mutual

theorem calls_iff_forall {P : Session → RenderCall → Prop} (s : Session) (a : Action) :
    a.Calls P s ↔ ∀ x ∈ calls s a, P x.1 x.2 := by
  match a with
  | .emit o => simp [calls]
  | .call c => simp [calls]
  | .within q root as => exact allCalls_iff_forall (s.push q root) as

theorem allCalls_iff_forall {P : Session → RenderCall → Prop} (s : Session) (as : List Action) :
    AllCalls P s as ↔ ∀ x ∈ callsAll s as, P x.1 x.2 := by
  match as with
  | [] => simp [callsAll]
  | a :: as =>
      rw [allCalls_cons, callsAll, List.forall_mem_append, calls_iff_forall s a,
        allCalls_iff_forall s as]

end

mutual

theorem failure_calls {s : Session} {a : Action} (hok : (a.output s).failure = none) :
    a.Calls (fun u b => (u.output b).failure = none) s := by
  match a with
  | .emit o => trivial
  | .call c => exact hok
  | .within q root as => exact failure_allCalls (s := s.push q root) hok

/-- Where a rendering comes to its end, all its calls do. -/
theorem failure_allCalls {s : Session} {as : List Action} (hok : (outputs s as).failure = none) :
    AllCalls (fun u b => (u.output b).failure = none) s as := by
  match as with
  | [] => trivial
  | a :: as =>
      obtain ⟨ha, has⟩ := Output.failure_append_eq_none.1 hok
      exact ⟨failure_calls ha, failure_allCalls has⟩

end

mutual

theorem table_mem_output {n : String} {s : Session} {a : Action} (ha : a.Tableless)
    (hok : (a.output s).failure = none) : .table n ∈ (a.output s).pieces ↔
      ∃ x ∈ calls s a, .table n ∈ (x.1.output x.2).pieces := by
  match a with
  | .emit o =>
      rw [output_emit, calls]
      simpa using ha n
  | .call c => simp [calls]
  | .within q root as => exact table_mem_outputs (s := s.push q root) ha hok

theorem table_mem_outputs {n : String} {s : Session} {as : List Action} (has : AllTableless as)
    (hok : (outputs s as).failure = none) : .table n ∈ (outputs s as).pieces ↔
      ∃ x ∈ callsAll s as, .table n ∈ (x.1.output x.2).pieces := by
  match as with
  | [] => simp [callsAll]
  | a :: as =>
      obtain ⟨haok, hasok⟩ := Output.failure_append_eq_none.1 hok
      rw [outputs_cons, Output.pieces_append haok, List.mem_append, table_mem_output has.1 haok,
        table_mem_outputs has.2 hasok, callsAll]
      simp only [List.mem_append, or_and_right, exists_or]

end

theorem table_mem_namedTable (n : String) (t : NamedTable) (label : Option String) :
    .table n ∈ (Render.namedTable t ++ .label label).pieces ↔ t.name = n := by
  have hname (t : NamedTable) : (Render.namedTable t).failure = none ∧
      (.table n ∈ (Render.namedTable t).pieces ↔ t.name = n) := by
    obtain ⟨schema, name⟩ := t
    cases schema with
    | none => exact ⟨rfl, by simp [Render.namedTable, Render.qualified, eq_comm]⟩
    | some schema =>
        refine ⟨rfl, ?_⟩
        rw [Render.namedTable, Render.qualified, Output.pieces_append rfl, Output.pieces_append rfl]
        simp [eq_comm]
  have hlabel := Output.Tableless.label label n
  rw [Output.pieces_append (hname t).1, List.mem_append, (hname t).2]
  simp [hlabel]

end Action

namespace Session

open DialectSql.Action (ofCall callsAll outputs)

/-- A call reaches itself and what the calls that it makes reach. -/
inductive Reaches : Session → RenderCall → RenderCall → Prop
  | here (s : Session) (c : RenderCall) : Reaches s c c
  | through {s u : Session} {c b e : RenderCall} (call : (u, b) ∈ callsAll s (ofCall s c))
      (rest : Reaches u b e) : Reaches s c e

theorem reaches_iff {s : Session} {c b : RenderCall} :
    s.Reaches c b ↔ b = c ∨ ∃ x ∈ callsAll s (ofCall s c), x.1.Reaches x.2 b := by
  constructor
  · intro h
    cases h with
    | here => exact .inl rfl
    | through call rest => exact .inr ⟨_, call, rest⟩
  · rintro (rfl | ⟨x, call, rest⟩)
    · exact .here s b
    · exact .through call rest

/-- The table with the given name is named by one of the calls that a call reaches. -/
def Names (s : Session) (c : RenderCall) (n : String) : Prop :=
  ∃ b t, s.Reaches c b ∧ b.named? = some t ∧ t.name = n

theorem names_iff {s : Session} {c : RenderCall} {n : String} :
    s.Names c n ↔ (∃ t, c.named? = some t ∧ t.name = n) ∨
      ∃ x ∈ callsAll s (ofCall s c), x.1.Names x.2 n := by
  constructor
  · rintro ⟨b, t, hreach, ht⟩
    obtain rfl | ⟨x, hx, hrest⟩ := reaches_iff.1 hreach
    · exact .inl ⟨t, ht⟩
    · exact .inr ⟨x, hx, b, t, hrest, ht⟩
  · rintro (⟨t, ht⟩ | ⟨x, hx, b, t, hrest, ht⟩)
    · exact ⟨c, t, .here s c, ht⟩
    · exact ⟨b, t, .through hx hrest, ht⟩

theorem table_mem_ofCall {n : String} {s : Session} {c : RenderCall}
    (hok : (s.output c).failure = none) : .table n ∈ (s.output c).pieces ↔
      (∃ t, c.named? = some t ∧ t.name = n) ∨
        ∃ x ∈ callsAll s (ofCall s c), .table n ∈ (x.1.output x.2).pieces := by
  rw [← Action.outputs_ofCall] at hok ⊢
  cases hnamed : c.named? with
  | none =>
      rw [Action.table_mem_outputs (Action.tableless_ofCall s hnamed) hok]
      simp
  | some t =>
      cases c with
      | tableGroup g =>
          obtain ⟨reference, label, joins⟩ := g
          cases reference with
          | derived => cases hnamed
          | named =>
              cases hnamed
              change Piece.table n ∈ (Render.namedTable t ++ .label label ++ .empty).pieces ↔ _
              rw [Output.append_empty, Action.table_mem_namedTable]
              simp [ofCall, Action.tableReference, callsAll, Action.calls]
      | tableGroupOn g p =>
          obtain ⟨reference, label, joins⟩ := g
          cases reference with
          | derived => cases hnamed
          | named =>
              cases hnamed
              obtain ⟨hhead, hrest⟩ := Output.failure_append_eq_none
                (a := Render.namedTable t ++ .label label).1 hok
              have htableless : Action.AllTableless [.text " on ", .predicate p] := by simp
              have hpredicate := Action.table_mem_outputs (n := n) (s := s) htableless hrest
              change Piece.table n ∈ (Action.outputs s (.emit (Render.namedTable t ++ .label label) ::
                [.text " on ", .predicate p])).pieces ↔ _
              rw [Action.outputs_cons, Action.output_emit, Output.pieces_append hhead,
                List.mem_append, Action.table_mem_namedTable, hpredicate]
              simp [ofCall, Action.tableReference, callsAll, Action.calls]
      | _ => cases hnamed

/-- The tables that are named in the text of a call are those that the calls it reaches name. -/
theorem table_mem_output {n : String} {s : Session} {c : RenderCall}
    (hok : (s.output c).failure = none) : .table n ∈ (s.output c).pieces ↔ s.Names c n := by
  induction hw : c.weight s using Nat.strong_induction_on generalizing s c with
  | h w ih =>
      subst hw
      have hsmaller := (Action.allCalls_iff_forall _ _).1 (Action.below_ofCall s c)
      have hok' : (Action.outputs s (ofCall s c)).failure = none := by rwa [Action.outputs_ofCall]
      have hends := (Action.allCalls_iff_forall _ _).1 (Action.failure_allCalls hok')
      rw [table_mem_ofCall hok, names_iff]
      refine or_congr_right (exists_congr fun x => and_congr_right fun hx => ?_)
      exact ih _ (hsmaller x hx) (hends x hx) rfl

end Session

end DialectSql
