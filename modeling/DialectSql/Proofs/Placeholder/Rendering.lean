import DialectSql.Render.Statement

namespace DialectSql

/-- The dialect with another placeholder style. -/
def Dialect.withPlaceholder (d : Dialect) (style : PlaceholderStyle) : Dialect :=
  { d with capabilities := { d.capabilities with placeholder := style } }

variable (d : Dialect) (style : PlaceholderStyle)

namespace Comparison

theorem distinctByIntersect_withPlaceholder (ls : List Operand) (op : ComparisonOperator)
    (rs : List Operand) :
    distinctByIntersect (d.withPlaceholder style) ls op rs = distinctByIntersect d ls op rs := rfl

mutual

theorem render_withPlaceholder (l : Operand) (op : ComparisonOperator) (r : Operand) :
    render (d.withPlaceholder style) l op r = render d l op r := by
  rw [render.eq_def, render.eq_def d]
  dsimp only [Dialect.withPlaceholder]
  split
  · exact standard_withPlaceholder l op r
  · exact intersect_withPlaceholder l op r
  · split
    · rename_i ls rs
      exact tuples_withPlaceholder ls rs op false
    · exact standard_withPlaceholder _ op _
termination_by (sizeOf l + sizeOf r, 4)

theorem intersect_withPlaceholder (l : Operand) (op : ComparisonOperator) (r : Operand) :
    intersect (d.withPlaceholder style) l op r = intersect d l op r := by
  rw [intersect, intersect, standard_withPlaceholder l op r,
    distinctByIntersect_withPlaceholder]
termination_by (sizeOf l + sizeOf r, 3)

theorem standard_withPlaceholder (l : Operand) (op : ComparisonOperator) (r : Operand) :
    standard (d.withPlaceholder style) l op r = standard d l op r := by
  match l, r with
  | .tuple ls, .quantified quantifier q =>
      rw [standard, standard, subquery_withPlaceholder ls q op quantifier false]
      rfl
  | .tuple ls, .subquery q =>
      rw [standard, standard, subquery_withPlaceholder ls q op .any false]
      rfl
  | .tuple ls, .tuple rs =>
      rw [standard, standard, tuples_withPlaceholder ls rs op true]
      rfl
  | .tuple ls, .scalar r => rw [standard.eq_def, standard.eq_def]
  | .scalar l, r | .subquery l, r | .quantified _ l, r =>
      rw [standard.eq_def, standard.eq_def]
      cases r <;> rfl
termination_by (sizeOf l + sizeOf r, 2)

theorem tuples_withPlaceholder (ls rs : List Operand) (op : ComparisonOperator) (bounded : Bool) :
    tuples (d.withPlaceholder style) ls rs op bounded = tuples d ls rs op bounded := by
  rw [tuples.eq_def, tuples.eq_def, renderEach_withPlaceholder op ls rs]
termination_by (sizeOf ls + sizeOf rs, 1)

theorem renderEach_withPlaceholder (op : ComparisonOperator) (ls rs : List Operand) :
    renderEach (d.withPlaceholder style) op ls rs = renderEach d op ls rs := by
  match ls, rs with
  | l :: ls, r :: rs =>
      rw [renderEach, renderEach, render_withPlaceholder l op r, renderEach_withPlaceholder op ls rs]
  | [], _ => rw [renderEach.eq_def, renderEach.eq_def]
  | _ :: _, [] => rw [renderEach.eq_def, renderEach.eq_def]
termination_by (sizeOf ls + sizeOf rs, 0)

theorem selectTuple_withPlaceholder (ss ts : List Operand) (op : ComparisonOperator) :
    selectTuple (d.withPlaceholder style) ss ts op = selectTuple d ss ts op := by
  rw [selectTuple, selectTuple, selectTupleStandard_withPlaceholder ss ts op,
    tuples_withPlaceholder ss ts op true, tuples_withPlaceholder ss ts op false]
  rfl
termination_by (sizeOf ss + sizeOf ts, 3)

theorem selectTupleStandard_withPlaceholder (ss ts : List Operand) (op : ComparisonOperator) :
    selectTupleStandard (d.withPlaceholder style) ss ts op = selectTupleStandard d ss ts op := by
  rw [selectTupleStandard, selectTupleStandard, tuples_withPlaceholder ss ts op true]
  rfl
termination_by (sizeOf ss + sizeOf ts, 2)

theorem subquery_withPlaceholder (ls : List Operand) (q : Subquery) (op : ComparisonOperator)
    (quantifier : Quantifier) (negated : Bool) :
    subquery (d.withPlaceholder style) ls q op quantifier negated =
      subquery d ls q op quantifier negated := by
  match q with
  | .setOperation o => rw [subquery, subquery]
  | .spec o movable source restriction selections =>
      have hmatch := selectTuple_withPlaceholder selections ls op.invert
      simp only [subquery.eq_def, hmatch]
termination_by (sizeOf ls + sizeOf q, 0)

end

end Comparison

namespace Render

theorem inList_withPlaceholder (e : Operand) (items : List Operand) (negated : Bool) :
    inList (d.withPlaceholder style) e items negated = inList d e items negated := by
  cases e with
  | tuple es =>
      simp only [inList, Comparison.tuples_withPlaceholder]
      rfl
  | scalar | subquery | quantified => rfl

theorem inSubquery_withPlaceholder (e : Operand) (q : Subquery) (negated : Bool) :
    inSubquery (d.withPlaceholder style) e q negated = inSubquery d e q negated := by
  cases e with
  | tuple es =>
      simp only [inSubquery, Comparison.subquery_withPlaceholder]
      rfl
  | scalar | subquery | quantified => rfl

theorem between_withPlaceholder (e low high : Operand) (negated : Bool) :
    between (d.withPlaceholder style) e low high negated = between d e low high negated := by
  rw [between, between, Comparison.tuples_withPlaceholder, Comparison.tuples_withPlaceholder]
  rfl

mutual

theorem operand_withPlaceholder (e : Expr) :
    operand (d.withPlaceholder style) e = operand d e := by
  match e with
  | .column .. | .parameter _ | .star _ | .literal _ => rfl
  | .tuple es => rw [operand, operand, operands_withPlaceholder es]
  | .summarization kind es => rw [operand, operand, operands_withPlaceholder es]; rfl
  | .binary left op right =>
      rw [operand, operand, operand_withPlaceholder left, operand_withPlaceholder right]
  | .negate e => rw [operand, operand, operand_withPlaceholder e]
  | .function name args distinct => rw [operand, operand, operands_withPlaceholder args]
  | .case branches none => rw [operand, operand, whenClauses_withPlaceholder branches]
  | .case branches (some e) =>
      rw [operand, operand, whenClauses_withPlaceholder branches, operand_withPlaceholder e]
  | .cast e type => rw [operand, operand, operand_withPlaceholder e]
  | .subquery q => rw [operand, operand, query_withPlaceholder none q]
  | .quantified quantifier q => rw [operand, operand, query_withPlaceholder none q]
  | .windowed function items keys frame =>
      rw [operand, operand, operand_withPlaceholder function, partition_withPlaceholder items,
        sortKeys_withPlaceholder keys]

theorem operands_withPlaceholder (es : List Expr) :
    operands (d.withPlaceholder style) es = operands d es := by
  match es with
  | [] => rfl
  | e :: es => rw [operands, operands, operand_withPlaceholder e, operands_withPlaceholder es]

theorem partition_withPlaceholder (es : List Expr) :
    partition (d.withPlaceholder style) es = partition d es := by
  match es with
  | [] => rfl
  | e :: es =>
      rw [partition, partition, operand_withPlaceholder e, partition_withPlaceholder es]
      rfl

theorem whenClauses_withPlaceholder (bs : List WhenClause) :
    whenClauses (d.withPlaceholder style) bs = whenClauses d bs := by
  match bs with
  | [] => rfl
  | ⟨condition, result⟩ :: bs =>
      rw [whenClauses, whenClauses, predicate_withPlaceholder condition,
        operand_withPlaceholder result, whenClauses_withPlaceholder bs]

theorem sortKeys_withPlaceholder (ks : List SortKey) :
    sortKeys (d.withPlaceholder style) ks = sortKeys d ks := by
  match ks with
  | [] => rfl
  | ⟨e, direction, nulls⟩ :: ks =>
      rw [sortKeys, sortKeys, operand_withPlaceholder e, sortKeys_withPlaceholder ks]
      rfl

theorem limit_withPlaceholder (e : Option Expr) :
    limit (d.withPlaceholder style) e = limit d e := by
  match e with
  | none => rfl
  | some e => rw [limit, limit, operand_withPlaceholder e]

theorem predicate_withPlaceholder (p : Predicate) :
    predicate (d.withPlaceholder style) p = predicate d p := by
  match p with
  | .comparison lhs op rhs =>
      rw [predicate, predicate, operand_withPlaceholder lhs, operand_withPlaceholder rhs,
        Comparison.render_withPlaceholder]
  | .junction nature members => rw [predicate, predicate, predicates_withPlaceholder members]
  | .negated p => rw [predicate, predicate, predicate_withPlaceholder p]
  | .nullCheck e negated => rw [predicate, predicate, operand_withPlaceholder e]
  | .inList e list negated =>
      rw [predicate, predicate, operand_withPlaceholder e, operands_withPlaceholder list,
        inList_withPlaceholder]
  | .inSubquery e q negated =>
      rw [predicate, predicate, operand_withPlaceholder e, query_withPlaceholder none q,
        inSubquery_withPlaceholder]
  | .exists q negated => rw [predicate, predicate, query_withPlaceholder none q]
  | .between e low high negated =>
      rw [predicate, predicate, operand_withPlaceholder e, operand_withPlaceholder low,
        operand_withPlaceholder high, between_withPlaceholder]
  | .like e pattern escape negated =>
      rw [predicate, predicate, operand_withPlaceholder e, operand_withPlaceholder pattern]
  | .boolean e => rw [predicate, predicate, operand_withPlaceholder e]

theorem predicates_withPlaceholder (ps : List Predicate) :
    predicates (d.withPlaceholder style) ps = predicates d ps := by
  match ps with
  | [] => rfl
  | p :: ps =>
      rw [predicates, predicates, predicate_withPlaceholder p, predicates_withPlaceholder ps]

theorem optionalPredicate_withPlaceholder (p : Option Predicate) :
    optionalPredicate (d.withPlaceholder style) p = optionalPredicate d p := by
  match p with
  | none => rfl
  | some p => rw [optionalPredicate, optionalPredicate, predicate_withPlaceholder p]

theorem selections_withPlaceholder (ss : List Selection) :
    selections (d.withPlaceholder style) ss = selections d ss := by
  match ss with
  | [] => rfl
  | ⟨e, label⟩ :: ss =>
      rw [selections, selections, operand_withPlaceholder e, selections_withPlaceholder ss]

theorem tableReference_withPlaceholder (label : Option String) (t : TableReference) :
    tableReference (d.withPlaceholder style) label t = tableReference d label t := by
  match t with
  | .named t => rfl
  | .derived q columns => rw [tableReference, tableReference, query_withPlaceholder none q]

theorem tableGroup_withPlaceholder (g : TableGroup) :
    tableGroup (d.withPlaceholder style) g = tableGroup d g := by
  match g with
  | ⟨reference, label, joins⟩ =>
      rw [tableGroup, tableGroup, tableReference_withPlaceholder label reference,
        joinLevels_withPlaceholder joins]

theorem tableGroups_withPlaceholder (gs : List TableGroup) :
    tableGroups (d.withPlaceholder style) gs = tableGroups d gs := by
  match gs with
  | [] => rfl
  | g :: gs =>
      rw [tableGroups, tableGroups, tableGroup_withPlaceholder g, tableGroups_withPlaceholder gs]

theorem joinLevels_withPlaceholder (js : List TableJoin) :
    joinLevels (d.withPlaceholder style) js = joinLevels d js := by
  match js with
  | [] => rfl
  | ⟨type, ⟨reference, label, joins⟩, p, lateral⟩ :: js =>
      rw [joinLevels, joinLevels, tableReference_withPlaceholder label reference,
        optionalPredicate_withPlaceholder p, joinLevels_withPlaceholder joins,
        joinLevels_withPlaceholder js]
      rfl

theorem query_withPlaceholder (lock : Option LockScope) (q : Query) :
    query (d.withPlaceholder style) lock q = query d lock q := by
  match q with
  | .spec s => rw [query, query, querySpec_withPlaceholder lock s]
  | .group g => rw [query, query, queryGroup_withPlaceholder lock g]

theorem querySpec_withPlaceholder (lock : Option LockScope) (s : QuerySpec) :
    querySpec (d.withPlaceholder style) lock s = querySpec d lock s := by
  match s with
  | ⟨distinct, items, roots, restriction, groupBy, having, keys, offset, fetch, kind⟩ =>
      rw [querySpec.eq_def, querySpec.eq_def d]
      dsimp only
      rw [selections_withPlaceholder items, tableGroups_withPlaceholder roots,
        optionalPredicate_withPlaceholder restriction, partition_withPlaceholder groupBy,
        optionalPredicate_withPlaceholder having, sortKeys_withPlaceholder keys,
        limit_withPlaceholder offset, limit_withPlaceholder fetch]
      rfl

theorem queryGroup_withPlaceholder (lock : Option LockScope) (g : QueryGroup) :
    queryGroup (d.withPlaceholder style) lock g = queryGroup d lock g := by
  match g with
  | ⟨operator, members, keys, offset, fetch, kind⟩ =>
      rw [queryGroup, queryGroup, groupMembers_withPlaceholder _ members,
        sortKeys_withPlaceholder keys, limit_withPlaceholder offset, limit_withPlaceholder fetch]
      rfl

theorem groupMembers_withPlaceholder (lock : Option LockScope) (qs : List Query) :
    groupMembers (d.withPlaceholder style) lock qs = groupMembers d lock qs := by
  match qs with
  | [] => rfl
  | q :: qs =>
      rw [groupMembers, groupMembers, query_withPlaceholder lock q,
        groupMembers_withPlaceholder lock qs]
      rfl

end

theorem cte_withPlaceholder (c : Cte) : cte (d.withPlaceholder style) c = cte d c := by
  rw [cte, cte, query_withPlaceholder]
  rfl

theorem withClause_withPlaceholder (cs : List Cte) :
    withClause (d.withPlaceholder style) cs = withClause d cs := by
  have hcte : cte (d.withPlaceholder style) = cte d := funext (cte_withPlaceholder d style)
  rw [withClause, withClause, hcte]
  rfl

theorem select_withPlaceholder (lock : Option LockScope) (s : SelectStatement) :
    select (d.withPlaceholder style) lock s = select d lock s := by
  rw [select, select, withClause_withPlaceholder, query_withPlaceholder]

theorem insertRow_withPlaceholder (columns : List String) (row : List Expr) :
    insertRow (d.withPlaceholder style) columns row = insertRow d columns row := by
  rw [insertRow, insertRow, operands_withPlaceholder]

theorem insertSource_withPlaceholder (columns : List String) (source : InsertSource) :
    insertSource (d.withPlaceholder style) columns source = insertSource d columns source := by
  cases source with
  | defaultValues => rfl
  | values rows =>
      have hrow : insertRow (d.withPlaceholder style) columns = insertRow d columns :=
        funext (insertRow_withPlaceholder d style columns)
      rw [insertSource, insertSource, insertRows, insertRows, hrow]
  | query s => rw [insertSource, insertSource, select_withPlaceholder]

theorem assignment_withPlaceholder (a : Assignment) :
    assignment (d.withPlaceholder style) a = assignment d a := by
  rw [assignment, assignment, expression, expression, operand_withPlaceholder]

theorem whereClause_withPlaceholder (p : Option Predicate) :
    whereClause (d.withPlaceholder style) p = whereClause d p := by
  rw [whereClause, whereClause, optionalPredicate_withPlaceholder]

theorem update_withPlaceholder (s : UpdateStatement) :
    update (d.withPlaceholder style) s = update d s := by
  have hassignment : assignment (d.withPlaceholder style) = assignment d :=
    funext (assignment_withPlaceholder d style)
  rw [update, update, hassignment, whereClause_withPlaceholder]

/-- The style of the placeholders has no say in the pieces of a statement, only in their texts. -/
theorem statement_withPlaceholder (lock : LockOptions) (s : Statement) :
    statement (d.withPlaceholder style) lock s = statement d lock s := by
  cases s with
  | select s => exact select_withPlaceholder d style _ s
  | insert s => rw [statement, statement, insert, insert, insertSource_withPlaceholder]
  | update s => exact update_withPlaceholder d style s
  | delete s => rw [statement, statement, delete, delete, whereClause_withPlaceholder]

end Render

end DialectSql
