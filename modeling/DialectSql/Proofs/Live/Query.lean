import DialectSql.Proofs.Live.Expression

namespace DialectSql

open Session (limitOf)

theorem Session.output_limitOf (d : Dialect) (e : Expr) :
    (limitOf d e).output = Render.expression d e := by
  rw [limitOf, Limit.ofExpr.eq_def]
  split <;> rfl

theorem Render.limit_eq (d : Dialect) (e : Option Expr) : limit d e = e.map (limitOf d) := by
  cases e <;> rfl

theorem Render.tableGroups_eq_map (d : Dialect) (gs : List TableGroup) :
    tableGroups d gs = gs.map (tableGroup d) := by
  induction gs with
  | nil => rfl
  | cons g gs ih => rw [tableGroups, ih, List.map_cons]

theorem Render.map_mergeLevels {α β : Type} (f : α → β) (as bs : List (List α)) :
    (mergeLevels as bs).map (List.map f) = mergeLevels (as.map (List.map f)) (bs.map (List.map f)) := by
  induction as generalizing bs with
  | nil => rfl
  | cons a as ih =>
      cases bs with
      | nil => rfl
      | cons b bs => simp [mergeLevels, ih]

/-- The queue of joins goes through their levels. -/
theorem levels_forest (d : Dialect) (js : List TableJoin) :
    (JoinTree.levels (TableJoin.forest js)).map (List.map (Session.joinOutput d)) =
      Render.joinLevels d js := by
  match js with
  | [] => rw [TableJoin.forest, JoinTree.levels, Render.joinLevels]; rfl
  | j :: js =>
      obtain ⟨type, ⟨reference, label, joins⟩, p, lateral⟩ := j
      rw [TableJoin.forest, JoinTree.levels, Render.map_mergeLevels, Render.joinLevels,
        levels_forest d js, List.map_cons, levels_forest d joins]
      rfl

/-- The condition that a join is rendered with. -/
theorem joinCondition_eq (d : Dialect) (j : TableJoin) :
    Render.joinCondition d j.type j.predicate j.lateral (Render.optionalPredicate d j.predicate) =
      .clause " on " (Render.optionalPredicate d (j.condition d)) := by
  have htrue : (if d.strategies.join = .standard ∨ j.lateral then
      .word " on " ++ .word JunctionNature.conjunction.emptySql else .empty) =
      Output.clause " on " (Render.optionalPredicate d
        (if d.strategies.join = .standard ∨ j.lateral then some .alwaysTrue else none)) := by
    split <;> rfl
  rw [Render.joinCondition.eq_def, TableJoin.condition]
  by_cases hcross : j.type = .cross
  · rw [if_pos hcross, if_pos hcross]
    rfl
  rw [if_neg hcross, if_neg hcross]
  cases j.predicate with
  | none => exact htrue
  | some p => cases hp : p.isEmpty <;> simp [hp, htrue, Option.filter_some]

namespace Action

theorem outputs_eq_concat (s : Session) (as : List Action) :
    outputs s as = .concat (as.map (output s)) := by
  induction as with
  | nil => rfl
  | cons a as ih => rw [outputs_cons, ih]; rfl

variable (s : Session)

theorem outputs_sortKey (k : SortKey) : outputs s (sortKey s.dialect k) =
    Render.sortKey s.dialect k.direction k.nulls (Render.expression s.dialect k.expr) := by
  obtain ⟨e, direction, nulls⟩ := k
  cases nulls with
  | none => simp [sortKey, Render.sortKey.eq_def]
  | some nulls =>
      rw [sortKey.eq_def, Render.sortKey.eq_def]
      cases s.dialect.capabilities.nullPrecedence <;> cases nulls <;>
        simp [Output.append_assoc]

theorem outputs_orderBy (keys : List SortKey) :
    outputs s (orderBy keys) = Render.orderBy (Render.sortKeys s.dialect keys) := by
  rw [orderBy, Render.orderBy, Render.sortKeys_eq_map, List.isEmpty_map, ← Render.sortKeys_eq_map]
  split <;> simp [Session.output]

theorem outputs_partitionItem (rule : PartitionRule) (e : Expr) :
    outputs s (partitionItem rule e) =
      Render.partitionItem rule e (Render.expression s.dialect e) := by
  cases rule <;> cases e <;> exact Output.append_empty _

theorem outputs_rowsTo (offset fetch : Option Expr) (kind : FetchKind) :
    outputs s (rowsTo offset fetch kind) =
      RowLimit.rowsTo s.dialect (offset.map (limitOf s.dialect)) (fetch.map (limitOf s.dialect))
        kind := by
  rw [rowsTo.eq_def, RowLimit.rowsTo.eq_def, Option.isNone_map, Option.isNone_map, Option.isSome_map]
  split
  · rfl
  split
  · exact Output.append_empty _
  · cases offset <;> cases fetch <;>
      simp [Session.output, Session.output_limitOf, Output.append_assoc]

theorem outputs_trailing (offset fetch : Option Expr) (kind : FetchKind) :
    outputs s (trailing s.dialect offset fetch kind) =
      RowLimit.trailing s.dialect (offset.map (limitOf s.dialect)) (fetch.map (limitOf s.dialect))
        kind := by
  rw [trailing.eq_def, RowLimit.trailing.eq_def, Option.isSome_map]
  cases s.dialect.capabilities.rowLimit <;> cases offset <;> cases fetch <;>
    simp [Session.output_limitOf, Output.append_assoc]

theorem outputs_upperBound (rule : UpperBoundRule) (fetch : Expr) (offset : Option Expr)
    (extra : Int64) : outputs s (upperBound rule fetch offset extra) =
      RowLimit.upperBound rule (limitOf s.dialect fetch) (offset.map (limitOf s.dialect)) extra := by
  cases rule <;> cases offset <;>
    simp [upperBound, RowLimit.upperBound, RowLimit.upperBoundStandard, Session.output,
      Session.output_limitOf, Output.append_assoc]

theorem outputs_tableReference (label : Option String) (t : TableReference) :
    outputs s (tableReference label t) = Render.tableReference s.dialect label t := by
  cases t with
  | named t => exact Output.append_empty _
  | derived q columns => simp [tableReference, Render.tableReference, Output.append_assoc]

theorem outputs_join (j : TableJoin) :
    outputs s (join s.dialect j) = Session.joinOutput s.dialect j := by
  simp only [join, outputs_cons, output_emit, output_call, outputs_nil, Output.append_empty,
    Session.output, Session.joinOutput, joinCondition_eq, Output.append_assoc]

theorem outputs_queue (g : TableGroup) : outputs s (g.queue.map fun j => .call (.join j)) =
    .concat (Render.joinLevels s.dialect g.joins).flatten := by
  rw [outputs_eq_concat, List.map_map, ← levels_forest, ← List.map_flatten,
    ← JoinTree.breadthFirst_eq_flatten_levels]
  rfl

theorem outputs_tables (roots : List TableGroup) : outputs s (tables s.dialect roots) =
    Render.fromClause s.dialect (Render.tableGroups s.dialect roots) := by
  rw [tables, Render.fromClause, Render.tableGroups_eq_map, List.isEmpty_map]
  split
  · exact Output.append_empty _
  · rw [outputs_cons, outputs_separated, List.map_map]
    refine congrArg (fun o => Output.word " from " ++ o) (congrArg Output.list ?_)
    refine List.map_congr_left fun g _ => ?_
    rw [Function.comp_apply, outputs_cons, outputs_queue]
    cases g
    rfl

theorem outputs_condition (keyword : String) (p : Option Predicate) :
    outputs s (condition keyword p) =
      Render.condition keyword p (Render.optionalPredicate s.dialect p) := by
  cases p with
  | none => rfl
  | some p =>
      rw [condition, Render.condition]
      split <;> simp [Render.optionalPredicate, Output.clause]

theorem outputs_selections (c : SelectClause) (viaDialect : Bool) :
    outputs s (selections s c viaDialect) = s.output (.selections c viaDialect) := by
  cases viaDialect with
  | false =>
      have hitems : (c.selections.map fun x => [expression x.expr, emit (.label x.label)]).map
          (outputs s) =
          (Render.selections s.dialect c.selections).map fun p => p.1.output ++ p.2 := by
        rw [Render.selections_eq_map, List.map_map, List.map_map]
        exact List.map_congr_left fun x _ => congrArg _ (Output.append_empty _)
      have hempty : (Render.selections s.dialect c.selections).isEmpty = c.selections.isEmpty := by
        rw [Render.selections_eq_map, List.isEmpty_map]
      have hlist : s.output (.selections c false) = Render.selectList c.distinct
          ((Render.selections s.dialect c.selections).map fun p => p.1.output ++ p.2) := rfl
      rw [hlist, selections, Render.selectList, List.isEmpty_map, hempty, ← hitems]
      simp only [Bool.false_eq_true, if_false, outputs_append, outputs_when, outputs_cons,
        outputs_nil, output_text, Output.append_empty]
      split <;> simp [Output.list]
  | true =>
      have hlist : s.output (.selections c true) = s.selectListOf c := rfl
      rw [hlist, selections.eq_def, Session.selectListOf.eq_def, if_pos rfl, outputs_append]
      cases s.currentSpec <;> cases hrule : s.dialect.strategies.selectList <;>
        simp [Render.selectListOf, Session.output, hrule]

theorem outputs_grouping (spec : QuerySpec) :
    outputs s (grouping spec.groupBy) = Render.grouping s.dialect spec := by
  rw [grouping, Render.grouping]
  split
  · rfl
  · rw [outputs_cons, outputs_separated, map_outputs_items]
    rfl

/-- The text of a query specification, as it is rendered behind its frame. -/
theorem outputs_querySpec (spec : QuerySpec) (root : Bool) :
    outputs (s.push (.spec spec) root) (querySpec (s.push (.spec spec) root) spec) =
      (Render.querySpec s.dialect (s.push (.spec spec) root).lockScope spec).output := by
  let inner := s.push (.spec spec) root
  have hselected : .word "select " ++
      (inner.output (.selections ⟨spec.distinct, spec.selections⟩ true) ++
        Render.fromClause inner.dialect (Render.tableGroups inner.dialect spec.roots)) =
      Render.selected inner.dialect spec := by
    rw [Render.selected, Render.limit_eq, Render.limit_eq, Output.append_assoc]
    rfl
  have hending : Render.orderBy (Render.sortKeys inner.dialect spec.orderBy) ++
      (inner.output (.rowLimit (.spec spec) true) ++
        Render.lockOf inner.dialect inner.lockScope spec) =
      Render.ending inner.dialect inner.lockScope spec := by
    rw [Render.ending, Render.limit_eq, Render.limit_eq]
    rfl
  change outputs inner (querySpec inner spec) =
    (Render.querySpec inner.dialect inner.lockScope spec).output
  rw [Render.output_querySpec, ← hselected, ← hending]
  simp only [querySpec, outputs_append, outputs_cons, outputs_nil, output_text, output_call,
    output_emit, outputs_tables, outputs_condition, outputs_grouping, outputs_orderBy,
    Output.append_empty, Output.append_assoc]
  rfl

theorem outputs_member (q : Query) : outputs s (member s.dialect q) =
    Render.member s.dialect q (Render.query s.dialect s.lockScope q).output := by
  have hplain : outputs s [call (.query q)] = (Render.query s.dialect s.lockScope q).output :=
    Output.append_empty _
  rw [member, Render.member_eq, Render.memberStart, Render.memberEnd]
  split
  · split <;> simp [hplain, Output.parenthesized, Output.append_assoc]
  · simp [hplain]

theorem outputs_membersJoined (operator : Output) (rows : List (List Action)) :
    outputs s (membersJoined operator rows) =
      Render.membersJoined operator (rows.map (outputs s)) := by
  fun_induction membersJoined operator rows with
  | case1 => rfl
  | case2 as => rfl
  | case3 as bs rest ih =>
      rw [outputs_append, outputs_append, ih]
      simp [Render.membersJoined, Output.append_assoc]

/-- The text of a set operation, as it is rendered behind its frame. -/
theorem outputs_queryGroup (g : QueryGroup) (lock : Option LockScope)
    (hlock : s.lockScope = lock.map fun scope => { scope with underSetOperation := true }) :
    .require (2 ≤ g.members.length) (.invalid (.tooFewMembers g.operator g.members.length)) ++
        outputs s (queryGroup s.dialect g) =
      Render.queryGroup s.dialect lock g := by
  obtain ⟨operator, members, keys, offset, fetch, kind⟩ := g
  have hmembers : (members.map (member s.dialect)).map (outputs s) =
      Render.groupMembers s.dialect s.lockScope members := by
    rw [Render.groupMembers_eq_map, List.map_map]
    exact List.map_congr_left fun q _ => outputs_member s q
  have hlength : (Render.groupMembers s.dialect s.lockScope members).length = members.length := by
    rw [Render.groupMembers_eq_map, List.length_map]
  rw [Render.queryGroup, ← hlock, Render.setOperation, hlength, Render.limit_eq, Render.limit_eq,
    Option.isSome_map, Option.isSome_map, queryGroup, Output.append_assoc, outputs_cons,
    output_emit]
  congr 2
  split <;>
    simp [outputs_membersJoined, hmembers, outputs_orderBy, Session.output, Query.offset,
      Query.fetch, Query.fetchKind, Output.append_assoc]

theorem outputs_query (root : Bool) (q : Query) : outputs s (query s root q) =
    (Render.query s.dialect (if root then some ⟨s.lock, s.underSetOperation⟩ else none)
      q).output := by
  cases q with
  | spec spec =>
      have hscope : (s.push (.spec spec) root).lockScope =
          if root then some ⟨s.lock, s.underSetOperation⟩ else none := rfl
      rw [query, outputs_cons, output_within, outputs_querySpec, hscope, outputs_nil,
        Output.append_empty]
      rfl
  | group g =>
      rw [query, outputs_cons, output_emit, outputs_cons, output_within, outputs_nil,
        Output.append_empty]
      refine outputs_queryGroup (s.push (.group g) root) g _ ?_
      cases root <;> rfl

theorem output_selectTuple (ss : List Selection) (ls : List Expr) (op : ComparisonOperator) :
    s.output (.selectTuple none ss ls op) =
      Comparison.selectTuple s.dialect (Render.operands s.dialect (ss.map (·.expr)))
        (Render.operands s.dialect ls) op := by
  rw [← Render.selections_operands]
  rfl

theorem outputs_moved (spec : QuerySpec) :
    outputs s (moved spec.restriction) =
      (spec.movedRestriction s.dialect).elim .empty fun r => r.parenthesized ++ .word " and " := by
  rw [QuerySpec.movedRestriction]
  cases spec.restriction with
  | none => rfl
  | some p =>
      rw [moved]
      cases hp : p.isEmpty <;> simp [hp]

theorem outputs_subqueryTuple (ls : List Expr) (q : Query) (op : ComparisonOperator)
    (quantifier : Quantifier) (negated : Bool) :
    outputs s (subqueryTuple s.dialect ls q op quantifier negated) =
      Comparison.subquery s.dialect (Render.operands s.dialect ls) (Render.query s.dialect none q)
        op quantifier negated := by
  cases q with
  | group g =>
      rw [Render.query, Comparison.subquery.eq_def]
      exact Output.append_empty _
  | spec spec =>
      obtain ⟨out, hspec⟩ := Render.querySpec_spec s.dialect spec
      have hinner : outputs (s.push (.spec spec) false) (tables s.dialect spec.roots) =
          Render.fromClause s.dialect (Render.tableGroups s.dialect spec.roots) :=
        outputs_tables (s.push (.spec spec) false) spec.roots
      have hmoved : outputs (s.push (.spec spec) false) (moved spec.restriction) =
          (spec.movedRestriction s.dialect).elim .empty fun r =>
            r.parenthesized ++ .word " and " :=
        outputs_moved (s.push (.spec spec) false) spec
      have hmatch : (s.push (.spec spec) false).output
          (.selectTuple none spec.selections ls op.invert) =
          Comparison.selectTuple s.dialect (Render.operands s.dialect spec.columns)
            (Render.operands s.dialect ls) op.invert :=
        output_selectTuple (s.push (.spec spec) false) spec.selections ls op.invert
      rw [Render.query, hspec, Comparison.subquery.eq_def, subqueryTuple]
      dsimp only
      split
      · exact Output.append_empty _
      · cases hm : spec.movedRestriction s.dialect <;>
          simp [hinner, hmoved, hmatch, hm, Render.length_operands, QuerySpec.columns,
            Output.append_assoc]

theorem outputs_rowLimit (q : Query) (viaDialect : Bool) :
    outputs s (ofCall s (.rowLimit q viaDialect)) = s.output (.rowLimit q viaDialect) := by
  have hcall : s.output (.rowLimit q viaDialect) =
      if viaDialect then RowLimit.clause s.dialect (q.offset.map (limitOf s.dialect))
        (q.fetch.map (limitOf s.dialect)) q.fetchKind
      else RowLimit.trailing s.dialect (q.offset.map (limitOf s.dialect))
        (q.fetch.map (limitOf s.dialect)) q.fetchKind := rfl
  rw [hcall, ofCall, RowLimit.clause]
  cases viaDialect with
  | false => exact outputs_trailing s _ _ _
  | true =>
      cases s.dialect.strategies.rowLimit with
      | standard => exact outputs_trailing s _ _ _
      | skip => rfl

theorem outputs_rule (rule : Option ComparisonRule) (l : Expr) (op : ComparisonOperator)
    (r : Expr) : outputs s (ofCall s (.comparison rule l op r)) =
      s.output (.comparison rule l op r) := by
  match rule with
  | some .standard => exact outputs_standard s l op r
  | some .intersect => exact outputs_intersect s l op r
  | some .lexicographic | none => exact outputs_comparison s l op r

theorem outputs_selectRule (rule : Option SelectTupleRule) (ss : List Selection) (ls : List Expr)
    (op : ComparisonOperator) : outputs s (ofCall s (.selectTuple rule ss ls op)) =
      s.output (.selectTuple rule ss ls op) := by
  have hcall : s.output (.selectTuple rule ss ls op) =
      Session.selectTupleBy s.dialect rule (Render.operands s.dialect (ss.map (·.expr)))
        (Render.operands s.dialect ls) op := by
    rw [← Render.selections_operands]
    rfl
  rw [hcall]
  match rule with
  | some .standard => exact outputs_selectStandard s _ ls op
  | some .emulate => exact Output.append_empty _
  | some .lexicographic | none => exact outputs_selectTuple s _ ls op

/-- What is done for a call renders what the session renders for it. -/
theorem outputs_ofCall (c : RenderCall) : outputs s (ofCall s c) = s.output c := by
  cases c with
  | text | parameter | gap | integerSum | lockStrategy | searchClause | cycleClause | arity
    | crossJoin => exact Output.append_empty _
  | expression e => exact outputs_ofExpr s e
  | predicate p => exact outputs_ofPredicate s p
  | expressions es =>
      rw [outputs_expressions, Render.operandOutputs_operands, ofCall, outputs_separated,
        List.map_map]
      exact congrArg Output.list (List.map_congr_left fun e _ => Output.append_empty _)
  | summarization kind groupings =>
      have hcall : s.output (.summarization kind groupings) =
          Render.summarization s.dialect kind
            (operandOutputs (Render.operands s.dialect groupings)) := rfl
      rw [hcall, ofCall, Render.summarization]
      split
      · exact Output.append_empty _
      · simp [outputs_expressions]
  | sortKeys keys =>
      have hcall : s.output (.sortKeys keys) = .list (Render.sortKeys s.dialect keys) := rfl
      rw [hcall, Render.sortKeys_eq_map, ofCall, outputs_separated, List.map_map]
      exact congrArg Output.list (List.map_congr_left fun k _ => outputs_sortKey s k)
  | rowsTo offset fetch kind => exact outputs_rowsTo s offset fetch kind
  | query q => exact outputs_query s s.inRoot q
  | nestedQuery q => exact outputs_query s false q
  | selections c viaDialect => exact outputs_selections s c viaDialect
  | rowLimit q viaDialect => exact outputs_rowLimit s q viaDialect
  | upperBound rule fetch offset extra => exact outputs_upperBound s _ fetch offset extra
  | comparison rule l op r => exact outputs_rule s rule l op r
  | tuples ls rs op bounded => exact outputs_tuples s ls rs op bounded
  | subqueryTuple ls q op quantifier negated =>
      exact outputs_subqueryTuple s ls q op quantifier negated
  | selectTuple rule ss ls op => exact outputs_selectRule s rule ss ls op
  | tableGroup g => exact outputs_tableReference s g.label g.reference
  | tableGroupOn g p =>
      have hcall : s.output (.tableGroupOn g p) =
          Render.tableReference s.dialect g.label g.reference ++ .word " on " ++
            Render.predicate s.dialect p := rfl
      simp [ofCall, hcall, outputs_tableReference, Output.append_assoc]
  | joinedGroup j p =>
      cases p with
      | none => simp [ofCall, Session.output, Output.clause, Render.optionalPredicate]
      | some p => simp [ofCall, Session.output, Output.clause, Render.optionalPredicate, Output.append_assoc]
  | join j => exact outputs_join s j
  | partitionItem rule e => exact outputs_partitionItem s _ e

end Action

end DialectSql
