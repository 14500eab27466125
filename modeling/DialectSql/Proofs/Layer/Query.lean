import DialectSql.Proofs.Layer.Clause

namespace DialectSql.Output.Layers

variable (L : Layers) (d : Dialect)

theorem groupBy (keys : List Expr) {items : List Output} (h : ∀ o ∈ items, L.source o) :
    L.clause (if keys.isEmpty then .empty else .word " group by " ++ .list items) := by
  split
  · exact L.ofClause.empty
  · exact L.keyedList " group by " rfl h

/-- The select list and the tables of a query. -/
theorem selected {items : List (Operand × Output)} (distinct : Bool) {source : Output}
    {offset fetch : Option Limit} (kind : FetchKind)
    (hi : ∀ o ∈ items.map fun (o, a) => o.output ++ a, L.source o) (hs : L.source source)
    (ho : Limit.Holds L offset) (hf : Limit.Holds L fetch) :
    L.clause (.word "select " ++
      Render.selectListOf d offset fetch kind
        (Render.selectList distinct (items.map fun (o, a) => o.output ++ a)) ++ source) :=
  L.ofClause.append (L.ofClause.append (L.ofClause.fixed _ rfl)
    (L.selectListOf d kind ho hf (L.selectList distinct hi))) (L.clause_of_source hs)

theorem mem_mergeLevels {α : Type} {as bs : List (List α)} {a : α} :
    a ∈ (Render.mergeLevels as bs).flatten ↔ a ∈ as.flatten ∨ a ∈ bs.flatten := by
  fun_induction Render.mergeLevels as bs with
  | case1 bs => simp
  | case2 as hne => simp
  | case3 a as b bs ih =>
      simp only [List.flatten_cons, List.mem_append, ih]
      tauto

mutual

theorem operandHolds (e : Expr) : (Render.operand d e).Holds L := by
  match e with
  | .column qualifier name =>
      exact L.qualified qualifier (L.ofExpression.name name)
  | .literal v => exact L.literal d v
  | .parameter slot => exact L.ofExpression.unit rfl rfl
  | .tuple es => simpa [Render.operand, Operand.Holds] using operandsHolds es
  | .summarization kind groupings =>
      exact L.summarization d kind (L.operands (operandsHolds groupings))
  | .binary left op right =>
      exact L.binary left op right (L.operand (operandHolds left)) (L.operand (operandHolds right))
  | .negate e => exact L.negation e (L.operand (operandHolds e))
  | .function name args distinct => exact L.call name distinct (L.operands (operandsHolds args))
  | .case branches none => exact L.caseOf (whenClausesHold branches) nofun
  | .case branches (some e) =>
      refine L.caseOf (whenClausesHold branches) ?_
      rintro o ⟨⟩
      exact L.query_of_expression (L.operand (operandHolds e))
  | .cast e type => exact L.cast type (L.operand (operandHolds e))
  | .subquery q => exact queryHolds q
  | .quantified quantifier q => exact queryHolds q
  | .windowed function partitionBy keys frame =>
      exact L.windowed frame (L.operand (operandHolds function)) (partitionHolds partitionBy)
        (sortKeysHold keys)
  | .star qualifier => exact L.qualified qualifier (L.ofExpression.fixed _ rfl)

theorem operandsHolds (es : List Expr) : operandsHold L (Render.operands d es) := by
  match es with
  | [] => trivial
  | e :: es => exact ⟨operandHolds e, operandsHolds es⟩

theorem partitionHolds (es : List Expr) : ∀ o ∈ Render.partition d es, L.source o := by
  match es with
  | [] => nofun
  | e :: es =>
      intro o ho
      rcases List.mem_cons.1 ho with rfl | ho
      · exact L.source_of_expression (L.partitionItem _ e (L.operand (operandHolds e)))
      · exact partitionHolds es o ho

theorem whenClausesHold (bs : List WhenClause) : ∀ o ∈ Render.whenClauses d bs, L.query o := by
  match bs with
  | [] => nofun
  | ⟨condition, result⟩ :: bs =>
      intro o ho
      rcases List.mem_cons.1 ho with rfl | ho
      · exact L.ofQuery.append (L.ofQuery.append (L.ofQuery.append (L.ofQuery.fixed _ rfl)
          (L.query_of_condition (predicateHolds condition))) (L.ofQuery.fixed _ rfl))
          (L.query_of_expression (L.operand (operandHolds result)))
      · exact whenClausesHold bs o ho

theorem sortKeysHold (ks : List SortKey) : ∀ o ∈ Render.sortKeys d ks, L.source o := by
  match ks with
  | [] => nofun
  | ⟨e, direction, nulls⟩ :: ks =>
      intro o ho
      rcases List.mem_cons.1 ho with rfl | ho
      · exact L.sortKey d direction nulls (L.operand (operandHolds e))
      · exact sortKeysHold ks o ho

theorem limitHolds (e : Option Expr) : Limit.Holds L (Render.limit d e) := by
  match e with
  | none => nofun
  | some e =>
      rintro m ⟨⟩
      have he := L.operand (operandHolds e)
      rw [Limit.ofExpr.eq_def]
      split <;> exact he

theorem predicateHolds (p : Predicate) : L.condition (Render.predicate d p) := by
  match p with
  | .comparison lhs op rhs =>
      exact L.condition_of_test (L.comparison d _ op _ (operandHolds lhs) (operandHolds rhs))
  | .junction nature members => exact L.junction nature (predicatesHold members)
  | .negated p => exact L.condition_of_test (L.negated (predicateHolds p))
  | .nullCheck e negated => exact L.condition_of_test (L.nullCheck (operandHolds e) negated)
  | .inList e list negated =>
      exact L.condition_of_test (L.inList d negated (operandHolds e) (operandsHolds list))
  | .inSubquery e q negated =>
      exact L.condition_of_test (L.inSubquery d negated (operandHolds e) (queryHolds q))
  | .exists q negated => exact L.condition_of_test (L.existence negated (queryHolds q))
  | .between e low high negated =>
      exact L.between d negated (operandHolds e) (operandHolds low) (operandHolds high)
  | .like e pattern escape negated =>
      exact L.condition_of_test
        (L.like escape negated (L.operand (operandHolds e)) (L.operand (operandHolds pattern)))
  | .boolean e => exact L.condition_of_expression (L.operand (operandHolds e))

theorem predicatesHold (ps : List Predicate) : ∀ m ∈ Render.predicates d ps, L.condition m.2 := by
  match ps with
  | [] => nofun
  | p :: ps =>
      intro m hm
      rcases List.mem_cons.1 hm with rfl | hm
      · exact predicateHolds p
      · exact predicatesHold ps m hm

theorem optionalPredicateHolds (p : Option Predicate) :
    ∀ c, Render.optionalPredicate d p = some c → L.condition c := by
  match p with
  | none => nofun
  | some p =>
      rintro c ⟨⟩
      exact predicateHolds p

theorem selectionsHold (ss : List Selection) :
    operandsHold L ((Render.selections d ss).map (·.1)) ∧
      ∀ o ∈ (Render.selections d ss).map fun (o, a) => o.output ++ a, L.source o := by
  match ss with
  | [] => exact ⟨trivial, nofun⟩
  | ⟨e, label⟩ :: ss =>
      obtain ⟨hoperands, houtputs⟩ := selectionsHold ss
      refine ⟨⟨operandHolds e, hoperands⟩, ?_⟩
      intro o ho
      rcases List.mem_cons.1 ho with rfl | ho
      · exact L.ofSource.append (L.source_of_expression (L.operand (operandHolds e)))
          (L.ofSource.label label)
      · exact houtputs o ho

theorem tableReferenceHolds (label : Option String) (t : TableReference) :
    L.expression (Render.tableReference d label t) := by
  have hlabel := L.ofExpression.label label
  match t with
  | .named t => exact L.ofExpression.append (L.namedTable t) hlabel
  | .derived q columns =>
      exact L.ofExpression.append (L.ofExpression.append (L.ofExpression.append
        (L.ofExpression.require _ _) (L.ofExpression.parenthesized (queryHolds q).output)) hlabel)
        (L.ofExpression.when _ (L.ofExpression.append (L.ofExpression.fixed _ rfl)
          (L.ofExpression.parenthesized (L.nameList columns))))

theorem tableGroupHolds (g : TableGroup) : L.source (Render.tableGroup d g) := by
  match g with
  | ⟨reference, label, joins⟩ =>
      exact L.ofSource.append (L.source_of_expression (tableReferenceHolds label reference))
        (L.ofSource.concat (joinLevelsHold joins))

theorem tableGroupsHold (gs : List TableGroup) : ∀ o ∈ Render.tableGroups d gs, L.source o := by
  match gs with
  | [] => nofun
  | g :: gs =>
      intro o ho
      rcases List.mem_cons.1 ho with rfl | ho
      · exact tableGroupHolds g
      · exact tableGroupsHold gs o ho

theorem joinLevelsHold (js : List TableJoin) :
    ∀ o ∈ (Render.joinLevels d js).flatten, L.source o := by
  match js with
  | [] => nofun
  | ⟨type, ⟨reference, label, joins⟩, p, lateral⟩ :: js =>
      intro o ho
      rw [Render.joinLevels] at ho
      rcases mem_mergeLevels.1 ho with ho | ho
      · rcases List.mem_append.1 ho with ho | ho
        · rw [List.mem_singleton.1 ho]
          exact L.ofSource.append (L.ofSource.append (L.joinHead d type p lateral)
            (L.source_of_expression (tableReferenceHolds label reference)))
            (L.joinCondition d type p lateral (optionalPredicateHolds p))
        · exact joinLevelsHold joins o ho
      · exact joinLevelsHold js o ho

theorem queryHolds (q : Query) : (Render.query d none q).Holds L := by
  match q with
  | .spec s => exact querySpecHolds s
  | .group g => exact queryGroupHolds g

theorem querySpecHolds (s : QuerySpec) : (Render.querySpec d none s).Holds L := by
  match s with
  | ⟨distinct, items, roots, restriction, groupBy, having, keys, offset, fetch, kind⟩ =>
      obtain ⟨hoperands, houtputs⟩ := selectionsHold items
      have hsource := L.fromClause d (tableGroupsHold roots)
      have hselected := L.query_of_clause (L.selected d distinct kind houtputs hsource
        (limitHolds offset) (limitHolds fetch))
      have hr := optionalPredicateHolds restriction
      have hwhere := L.condition_of_given L.ofQuery " where " rfl restriction
        fun c hc => L.query_of_condition (hr c hc)
      have hgroup := L.query_of_clause (L.groupBy groupBy (partitionHolds groupBy))
      have hhaving := L.condition_of_given L.ofQuery " having " rfl having
        fun c hc => L.query_of_condition (optionalPredicateHolds having c hc)
      have horder := L.query_of_clause (L.orderBy (sortKeysHold keys))
      have hlimit := L.query_of_clause
        (L.rowLimit d kind (limitHolds offset) (limitHolds fetch))
      have hall := L.ofQuery.append (L.ofQuery.append (L.ofQuery.append (L.ofQuery.append
        (L.ofQuery.append (L.ofQuery.append hselected hwhere) hgroup) hhaving) horder) hlimit)
        L.ofQuery.empty
      refine ⟨hall, hsource, ?_, hoperands⟩
      intro r hmoved
      split at hmoved
      · split at hmoved
        · cases hmoved
        · exact hr r hmoved
      · cases hmoved

theorem queryGroupHolds (g : QueryGroup) : L.query (Render.queryGroup d none g) := by
  match g with
  | ⟨operator, members, keys, offset, fetch, kind⟩ =>
      exact L.setOperation d operator kind (groupMembersHold members) (sortKeysHold keys)
        (limitHolds offset) (limitHolds fetch)

theorem groupMembersHold (qs : List Query) : ∀ o ∈ Render.groupMembers d none qs, L.query o := by
  match qs with
  | [] => nofun
  | q :: qs =>
      intro o ho
      rcases List.mem_cons.1 ho with rfl | ho
      · exact L.member d q (queryHolds q).output
      · exact groupMembersHold qs o ho

end

end DialectSql.Output.Layers
