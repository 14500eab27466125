import DialectSql.Proofs.QuerySpec
import DialectSql.Proofs.Slots.Binding

namespace DialectSql

open Output (BindsEach)

/-- A comparison that the generic dialect renders is written as it stands. -/
theorem Comparison.render_generic {l r : Operand} {op : ComparisonOperator}
    (h : (render .generic l op r).failure = none) : render .generic l op r = plain l op r := by
  rw [render.eq_def] at h ⊢
  change (standard .generic l op r).failure = none at h
  change standard .generic l op r = plain l op r
  cases l with
  | tuple ls =>
      cases r with
      | scalar r => rw [standard.eq_def] at h; cases h
      | tuple rs =>
          rw [standard.eq_def] at h ⊢
          have hlength := (Output.failure_checkArity _ _).1 (Output.failure_append_eq_none.1 h).1
          dsimp only
          rw [hlength, Output.checkArity_self, Output.empty_append]
          cases op <;> rfl
      | subquery q => rw [standard.eq_def]; rfl
      | quantified quantifier q => rw [standard.eq_def]; rfl
  | scalar | subquery | quantified =>
      cases r with
      | tuple rs => rw [standard.eq_def] at h; cases h
      | scalar => rw [standard.eq_def]; cases op <;> rfl
      | subquery | quantified => rw [standard.eq_def]

namespace Render

section Parts

variable {o l r : Output} {xs ys : List BindSlot}

theorem binds_literal (d : Dialect) (v : SqlValue) : (literal d v).Binds [] := by
  rw [literal.eq_def]
  split
  · exact fun _ => rfl
  · exact SqlValue.binds_pieces _

theorem binds_qualified (qualifier : Option String) (h : o.Binds xs) :
    (qualified qualifier o).Binds xs := by
  cases qualifier with
  | none => exact h
  | some q => exact ((Output.Binds.name q).text_append (.word ".")).text_append h

theorem binds_binary (left : Expr) (op : BinaryOp) (right : Expr) (hl : l.Binds xs)
    (hr : r.Binds ys) : (binary left op right l r).Binds (xs ++ ys) :=
  ((((hl.wrap _).append_text (.word " ")).append_text (.word op.sql)).append_text
    (.word " ")).append (hr.wrap _)

theorem binds_negation (e : Expr) (h : o.Binds xs) : (negation e o).Binds xs :=
  (Output.Binds.word "-").text_append (h.wrap _)

theorem binds_call (name : String) (distinct : Bool) {args : List Output} (h : BindsEach args xs) :
    (call name args distinct).Binds xs :=
  ((((Output.Binds.name name).text_append (.word "(")).text_append
    (.when distinct (.word "distinct "))).text_append h.list).append_text (.word ")")

theorem binds_clause (keyword : String) {o : Option Output} (h : (o.getD .empty).Binds xs) :
    (Output.clause keyword o).Binds xs := by
  cases o with
  | none => exact h
  | some o => exact (Output.Binds.word keyword).text_append h

theorem binds_caseOf {branches : List Output} {otherwise : Option Output}
    (hb : BindsEach branches xs) (ho : (otherwise.getD .empty).Binds ys) :
    (caseOf branches otherwise).Binds (xs ++ ys) := by
  rw [caseOf]
  split
  · exact .fail _
  · exact (((Output.Binds.word "case").text_append hb.concat).append
      (binds_clause " else " ho)).append_text (.word " end")

theorem binds_listing (keyword : String) {os : List Output} (h : BindsEach os xs) :
    (if os.isEmpty then Output.empty else .word keyword ++ .list os).Binds xs := by
  cases h with
  | nil => exact .empty
  | cons ho hos => exact (Output.Binds.word keyword).text_append (BindsEach.cons ho hos).list

theorem binds_grouping (items : List Expr) (h : BindsEach (partition .generic items) xs) :
    (if items.isEmpty then Output.empty else
      .word " group by " ++ .list (partition .generic items)).Binds xs := by
  cases items with
  | nil => exact binds_listing " group by " h
  | cons e es => exact binds_listing " group by " h

theorem bindsEach_listing (keyword : String) {os : List Output} (h : BindsEach os xs) :
    BindsEach (if os.isEmpty then [] else [.word keyword ++ .list os]) xs := by
  cases h with
  | nil => exact .nil
  | cons ho hos =>
      have hlist := (Output.Binds.word keyword).text_append (BindsEach.cons ho hos).list
      simpa using BindsEach.cons hlist .nil

theorem binds_windowed (frame : Option WindowFrame) {items keys : List Output}
    {zs : List BindSlot} (ho : o.Binds xs) (hi : BindsEach items ys) (hk : BindsEach keys zs) :
    (windowed o items keys frame).Binds (xs ++ ys ++ zs) := by
  have hframe : BindsEach (frame.toList.map fun f => .word f.sql) [] :=
    .texts fun o ho => by
      obtain ⟨f, -, rfl⟩ := List.mem_map.1 ho
      exact .word _
  have hwindow := ((bindsEach_listing "partition by " hi).append
    (bindsEach_listing "order by " hk)).append hframe
  rw [List.append_nil] at hwindow
  rw [List.append_assoc]
  exact (ho.append_text (.word " over ")).append (hwindow.joined " ").parenthesized

theorem binds_partitionItem {e : Expr} (h : o.Binds e.slots) :
    (partitionItem .standard e o).Binds e.slots := by
  cases e with
  | literal v =>
      rw [Expr.slots]
      exact .word "()"
  | _ => exact h

theorem binds_sortKey (direction : OrderDirection) (nulls : Option NullOrdering) (h : o.Binds xs) :
    (sortKey .generic direction nulls o).Binds xs := by
  have hkey := h.append_text (.when (direction == .desc) (.word " desc"))
  cases nulls with
  | none => exact hkey
  | some nulls => exact (hkey.append_text (.word " ")).append_text (.word nulls.sql)

theorem binds_nullTest {e : Operand} (h : e.output.Binds xs) (negated : Bool) :
    (Comparison.nullTest e negated).Binds xs := h.append_text (.word _)

theorem bindsEach_nullTests {es : List Operand} (h : BindsEach (operandOutputs es) xs)
    (negated : Bool) : BindsEach (es.map (Comparison.nullTest · negated)) xs := by
  induction es generalizing xs with
  | nil => exact h
  | cons e es ih =>
      rw [operandOutputs] at h
      cases h with
      | cons he hes => exact .cons (binds_nullTest he negated) (ih hes)

theorem binds_nullCheck {e : Operand} (h : e.Binds xs) (negated : Bool) :
    (nullCheck e negated).Binds xs := by
  cases e with
  | tuple es =>
      rw [nullCheck]
      split
      · exact ((bindsEach_nullTests h negated).joined " and ").parenthesized
      · exact binds_nullTest h.output negated
  | scalar | subquery | quantified => exact binds_nullTest h negated

theorem binds_checkArities (n : Nat) (items : List Operand) : (checkArities n items).Binds [] :=
  (BindsEach.texts fun o ho => by
    obtain ⟨i, -, rfl⟩ := List.mem_map.1 ho
    exact .checkArity _ _).concat

theorem binds_inList {e i : Operand} {items : List Operand} (negated : Bool)
    (he : e.output.Binds xs) (hi : BindsEach (operandOutputs (i :: items)) ys) :
    (inList .generic e (i :: items) negated).Binds (xs ++ ys) := by
  have hnative := ((he.append_text (.word (membership negated))).append hi.list).append_text
    (.word ")")
  cases e with
  | tuple es => exact (binds_checkArities _ _).text_append hnative
  | scalar | subquery | quantified => exact hnative

theorem binds_inSubquery {e : Operand} {q : Subquery} (negated : Bool) (he : e.output.Binds xs)
    (hq : q.output.Binds ys) : (inSubquery .generic e q negated).Binds (xs ++ ys) := by
  have hnative := ((he.append_text (.word (membership negated))).append hq).append_text (.word ")")
  cases e with
  | tuple es => exact hnative
  | scalar | subquery | quantified => exact hnative

theorem binds_between {e low high : Operand} {zs : List BindSlot} (negated : Bool)
    (he : e.output.Binds xs) (hl : low.output.Binds ys) (hh : high.output.Binds zs) :
    (between .generic e low high negated).Binds (xs ++ ys ++ zs) := by
  have hnative : between .generic e low high negated = e.output ++
      .word (if negated then " not between " else " between ") ++ low.output ++ .word " and " ++
      high.output := if_neg (by simp [Dialect.generic, Capabilities.standard])
  rw [hnative]
  exact (((he.append_text (.word _)).append hl).append_text (.word " and ")).append hh

theorem binds_like (escape : Option Char) (negated : Bool) (hl : l.Binds xs) (hr : r.Binds ys) :
    (like l r escape negated).Binds (xs ++ ys) := by
  refine ((hl.append_text (.word _)).append hr).append_text ?_
  cases escape with
  | none => exact .empty
  | some c => exact (Output.Binds.word " escape ").text_append fun _ => rfl

theorem bindsEach_wrap {members : List (Bool × Output)}
    (h : BindsEach (members.map (·.2)) xs) :
    BindsEach (members.map fun (compound, o) => wrap compound o) xs := by
  induction members generalizing xs with
  | nil => exact h
  | cons m ms ih =>
      cases h with
      | cons hm hms => exact .cons (hm.wrap m.1) (ih hms)

theorem binds_junction (nature : JunctionNature) {members : List (Bool × Output)}
    (h : BindsEach (members.map (·.2)) xs) : (junction nature members).Binds xs := by
  rw [junction.eq_def]
  split
  · cases h
    exact .word _
  · cases h with
    | cons ho hnil =>
        cases hnil
        simpa using ho
  · exact (bindsEach_wrap h).joined nature.separator

theorem binds_selectList (distinct : Bool) {os : List Output} (h : BindsEach os xs) :
    (selectList distinct os).Binds xs := by
  have hdistinct := Output.Binds.when distinct (.word "distinct ")
  cases h with
  | nil => exact hdistinct.text_append (.word "*")
  | cons ho hos => exact hdistinct.text_append (BindsEach.cons ho hos).list

theorem binds_namedTable (t : NamedTable) : (namedTable t).Binds [] :=
  binds_qualified t.schema fun _ => rfl

theorem Predicate.slots_of_isEmpty {p : Predicate} (h : p.isEmpty = true) : p.slots = [] := by
  cases p with
  | junction nature members =>
      rw [Predicate.slots, List.isEmpty_iff.1 h, Predicate.listSlots]
  | _ => cases h

theorem binds_condition (keyword : String) {p : Option Predicate} {o : Option Output}
    (h : (o.getD .empty).Binds (Predicate.optionSlots p)) :
    (condition keyword p o).Binds (Predicate.optionSlots p) := by
  cases p with
  | none => exact .empty
  | some p =>
      cases hempty : p.isEmpty with
      | true =>
          rw [condition, hempty, Predicate.optionSlots, Predicate.slots_of_isEmpty hempty]
          exact .empty
      | false =>
          rw [condition, hempty]
          exact binds_clause keyword h

theorem optionSlots_of_checkCrossJoin {p : Option Predicate}
    (h : (checkCrossJoin p).failure = none) : Predicate.optionSlots p = [] := by
  cases p with
  | none => rfl
  | some p =>
      exact Predicate.slots_of_isEmpty ((Output.failure_require_eq_none _ _).1 h)

theorem binds_joinHead (type : JoinType) (p : Option Predicate) (lateral : Bool) :
    (joinHead .generic type p lateral).Binds [] := by
  have hlateral : (Output.require true (.unsupported .lateral) ++ Output.word "lateral ").Binds [] :=
    (Output.Binds.require _ _).text_append (.word _)
  exact ((((Output.Binds.word " ").text_append (.word type.sql)).text_append
    (.word " join ")).text_append (.when lateral hlateral)).text_append
    (.when (type == .cross) (.require _ _))

/-- The condition of a cross join is refused in front of the table, and a missing one is true. -/
theorem binds_joinCondition {type : JoinType} {p : Option Predicate} {lateral : Bool}
    {c : Option Output} (hhead : (joinHead .generic type p lateral).failure = none)
    (h : (c.getD .empty).Binds (Predicate.optionSlots p)) :
    (joinCondition .generic type p lateral c).Binds (Predicate.optionSlots p) := by
  cases type with
  | cross =>
      rw [optionSlots_of_checkCrossJoin (Output.failure_append_eq_none.1 hhead).2]
      exact .empty
  | inner | left | right | full =>
      have htrue := (Output.Binds.word " on ").text_append
        (.word JunctionNature.conjunction.emptySql)
      cases p with
      | none => exact htrue
      | some p =>
          cases hempty : p.isEmpty with
          | true =>
              rw [Predicate.optionSlots, Predicate.slots_of_isEmpty hempty]
              simpa [joinCondition, hempty, Dialect.generic] using htrue
          | false => simpa [joinCondition, hempty] using binds_clause " on " h

theorem binds_join (type : JoinType) {p : Option Predicate} (lateral : Bool) {c : Option Output}
    (ho : o.Binds xs) (hp : (c.getD .empty).Binds (Predicate.optionSlots p)) :
    (joinHead .generic type p lateral ++ o ++ joinCondition .generic type p lateral c).Binds
      (xs ++ Predicate.optionSlots p) := by
  cases hhead : (joinHead .generic type p lateral).failure with
  | some e => exact .of_failure (e := e) (by simp [hhead])
  | none =>
      exact ((binds_joinHead type p lateral).text_append ho).append (binds_joinCondition hhead hp)

theorem binds_rowLimit {offset fetch : Option Limit} (kind : FetchKind)
    (ho : ((offset.map Limit.output).getD .empty).Binds xs)
    (hf : ((fetch.map Limit.output).getD .empty).Binds ys) :
    (RowLimit.clause .generic offset fetch kind).Binds (xs ++ ys) := by
  refine Output.Binds.append ?_ ?_
  · cases offset with
    | none => exact ho
    | some offset => exact ((Output.Binds.word " offset ").text_append ho).append_text (.word " rows")
  · cases fetch with
    | none => exact hf
    | some fetch =>
        exact (((Output.Binds.require _ _).text_append (.word " fetch first ")).text_append
          hf).append_text (.word _)

theorem binds_member (q : Query) (h : o.Binds xs) : (member .generic q o).Binds xs := by
  cases q with
  | spec s => exact h.wrap _
  | group g => exact h.parenthesized

theorem binds_membersJoined (operator : Output) {os : List Output} (hop : operator.Binds [])
    (h : BindsEach os xs) : (membersJoined operator os).Binds xs := by
  induction h with
  | nil => exact .empty
  | cons ho hos ih =>
      cases hos with
      | nil =>
          rw [List.append_nil]
          exact ho
      | cons hp hps =>
          exact (((ho.append_text (.word " ")).append_text hop).append_text (.word " ")).append ih

theorem binds_setOperatorText (op : SetOperator) : (setOperatorText .generic op).Binds [] := by
  cases op <;> exact .word _

end Parts

mutual

theorem binds_operand (e : Expr) : (operand .generic e).Binds e.slots := by
  match e with
  | .column qualifier name => exact binds_qualified qualifier (.name name)
  | .star qualifier => exact binds_qualified qualifier (.word "*")
  | .literal v => exact binds_literal .generic v
  | .parameter slot => exact fun _ => rfl
  | .tuple es => exact bindsEach_operands es
  | .summarization kind es =>
      exact (Output.Binds.word kind.sql).text_append (bindsEach_operands es).list.parenthesized
  | .binary left op right =>
      exact binds_binary left op right (binds_operand left).output (binds_operand right).output
  | .negate e => exact binds_negation e (binds_operand e).output
  | .function name args distinct => exact binds_call name distinct (bindsEach_operands args)
  | .case branches none => exact binds_caseOf (bindsEach_whenClauses branches) .empty
  | .case branches (some e) =>
      exact binds_caseOf (bindsEach_whenClauses branches) (binds_operand e).output
  | .cast e type =>
      exact ((((Output.Binds.word "cast(").text_append (binds_operand e).output).append_text
        (.word " as ")).append_text (.name type.sql)).append_text (.word ")")
  | .subquery q => exact (binds_query none q).parenthesized
  | .quantified quantifier q =>
      exact ((Output.Binds.word quantifier.sql).text_append (.word " ")).text_append
        (binds_query none q).parenthesized
  | .windowed function items keys frame =>
      exact binds_windowed frame (binds_operand function).output (bindsEach_partition items)
        (bindsEach_sortKeys keys)

theorem bindsEach_operands (es : List Expr) :
    BindsEach (operandOutputs (operands .generic es)) (Expr.listSlots es) := by
  match es with
  | [] => exact .nil
  | e :: es => exact .cons (binds_operand e).output (bindsEach_operands es)

theorem bindsEach_partition (es : List Expr) :
    BindsEach (partition .generic es) (Expr.listSlots es) := by
  match es with
  | [] => exact .nil
  | e :: es => exact .cons (binds_partitionItem (binds_operand e).output) (bindsEach_partition es)

theorem bindsEach_whenClauses (bs : List WhenClause) :
    BindsEach (whenClauses .generic bs) (WhenClause.listSlots bs) := by
  match bs with
  | [] => exact .nil
  | ⟨condition, result⟩ :: bs =>
      exact .cons ((((Output.Binds.word " when ").text_append (binds_predicate condition)).append_text
        (.word " then ")).append (binds_operand result).output) (bindsEach_whenClauses bs)

theorem bindsEach_sortKeys (ks : List SortKey) :
    BindsEach (sortKeys .generic ks) (SortKey.listSlots ks) := by
  match ks with
  | [] => exact .nil
  | ⟨e, direction, nulls⟩ :: ks =>
      exact .cons (binds_sortKey direction nulls (binds_operand e).output) (bindsEach_sortKeys ks)

theorem binds_limit (e : Option Expr) :
    (((limit .generic e).map Limit.output).getD .empty).Binds (Expr.optionSlots e) := by
  match e with
  | none => exact .empty
  | some e =>
      have houtput : (Limit.ofExpr e (operand .generic e).output).output =
          (operand .generic e).output := by
        rw [Limit.ofExpr.eq_def]
        split <;> rfl
      rw [limit, Option.map_some, houtput]
      exact (binds_operand e).output

theorem binds_predicate (p : Predicate) : (predicate .generic p).Binds p.slots := by
  match p with
  | .comparison lhs op rhs =>
      intro h
      rw [predicate] at h ⊢
      have hplain := Comparison.render_generic h
      rw [hplain] at h ⊢
      exact ((binds_operand lhs).output.append_text (.word op.sql)).append (binds_operand rhs).output h
  | .junction nature members =>
      have hmembers := bindsEach_predicates members
      exact binds_junction nature hmembers
  | .negated p => exact (Output.Binds.word "not ").text_append (binds_predicate p).parenthesized
  | .nullCheck e negated => exact binds_nullCheck (binds_operand e) negated
  | .inList e [] negated => exact .word _
  | .inList e (i :: items) negated =>
      exact binds_inList negated (binds_operand e).output
        (.cons (binds_operand i).output (bindsEach_operands items))
  | .inSubquery e q negated =>
      exact binds_inSubquery negated (binds_operand e).output (binds_query none q)
  | .exists q negated =>
      exact ((Output.Binds.when negated (.word "not ")).text_append (.word "exists ")).text_append
        (binds_query none q).parenthesized
  | .between e low high negated =>
      exact binds_between negated (binds_operand e).output (binds_operand low).output
        (binds_operand high).output
  | .like e pattern escape negated =>
      exact binds_like escape negated (binds_operand e).output (binds_operand pattern).output
  | .boolean e => exact (binds_operand e).output

theorem bindsEach_predicates (ps : List Predicate) :
    BindsEach ((predicates .generic ps).map (·.2)) (Predicate.listSlots ps) := by
  match ps with
  | [] => exact .nil
  | p :: ps => exact .cons (binds_predicate p) (bindsEach_predicates ps)

theorem binds_optionalPredicate (p : Option Predicate) :
    ((optionalPredicate .generic p).getD .empty).Binds (Predicate.optionSlots p) := by
  match p with
  | none => exact .empty
  | some p => exact binds_predicate p

theorem bindsEach_selections (ss : List Selection) :
    BindsEach ((selections .generic ss).map fun (o, a) => o.output ++ a)
      (Selection.listSlots ss) := by
  match ss with
  | [] => exact .nil
  | ⟨e, label⟩ :: ss =>
      exact .cons ((binds_operand e).output.append_text (.label label)) (bindsEach_selections ss)

theorem binds_tableReference (label : Option String) (t : TableReference) :
    (tableReference .generic label t).Binds t.slots := by
  match t with
  | .named t => exact (binds_namedTable t).append_text (.label label)
  | .derived q columns =>
      have hcolumns := (Output.Binds.word " ").text_append
        (Output.binds_nameList columns).parenthesized
      exact (((Output.Binds.require _ _).text_append (binds_query none q).parenthesized).append_text
        (.label label)).append_text (.when _ hcolumns)

theorem binds_tableGroup (g : TableGroup) : (tableGroup .generic g).Binds g.slots := by
  match g with
  | ⟨reference, label, joins⟩ =>
      have hjoins := BindsEach.of_levels (joinLevels_binds joins)
      rw [← JoinTree.breadthFirst_eq_flatten_levels] at hjoins
      exact (binds_tableReference label reference).append hjoins.concat

theorem bindsEach_tableGroups (gs : List TableGroup) :
    BindsEach (tableGroups .generic gs) (TableGroup.listSlots gs) := by
  match gs with
  | [] => exact .nil
  | g :: gs => exact .cons (binds_tableGroup g) (bindsEach_tableGroups gs)

theorem joinLevels_binds (js : List TableJoin) :
    List.Forall₂ (List.Forall₂ Output.Binds) (joinLevels .generic js)
      (JoinTree.levels (TableJoin.trees js)) := by
  match js with
  | [] =>
      rw [joinLevels, TableJoin.trees, JoinTree.levels]
      exact .nil
  | ⟨type, ⟨reference, label, joins⟩, p, lateral⟩ :: js =>
      have hown := binds_join type lateral (binds_tableReference label reference)
        (binds_optionalPredicate p)
      rw [joinLevels, TableJoin.trees, JoinTree.levels]
      exact Output.forall₂_mergeLevels (.cons (.cons hown .nil) (joinLevels_binds joins))
        (joinLevels_binds js)

theorem binds_query (lock : Option LockScope) (q : Query) :
    (query .generic lock q).output.Binds q.slots := by
  match q with
  | .spec s => exact binds_querySpec lock s
  | .group g => exact binds_queryGroup lock g

theorem binds_querySpec (lock : Option LockScope) (s : QuerySpec) :
    (querySpec .generic lock s).output.Binds s.slots := by
  match s with
  | ⟨distinct, items, roots, restriction, groupBy, having, keys, offset, fetch, kind⟩ =>
      have hitems := (Output.Binds.word "select ").text_append
        (binds_selectList distinct (bindsEach_selections items))
      have hsource := hitems.append (binds_listing " from " (bindsEach_tableGroups roots))
      have hrestriction := hsource.append
        (binds_condition " where " (binds_optionalPredicate restriction))
      have hgroup := hrestriction.append (binds_grouping groupBy (bindsEach_partition groupBy))
      have hhaving := hgroup.append
        (binds_condition " having " (binds_optionalPredicate having))
      have hkeys := hhaving.append (binds_listing " order by " (bindsEach_sortKeys keys))
      have hlimit := hkeys.append (binds_rowLimit kind (binds_limit offset) (binds_limit fetch))
      rw [← List.append_assoc] at hlimit
      exact hlimit.append_text (by
        cases lock with
        | none => exact .empty
        | some scope => exact Locking.binds_render .generic scope _)

theorem binds_queryGroup (lock : Option LockScope) (g : QueryGroup) :
    (queryGroup .generic lock g).Binds g.slots := by
  match g with
  | ⟨operator, members, keys, offset, fetch, kind⟩ =>
      have hmembers := binds_membersJoined (setOperatorText .generic operator)
        (binds_setOperatorText operator) (bindsEach_groupMembers
          (lock.map fun scope => { scope with underSetOperation := true }) members)
      have hkeys := hmembers.append (binds_listing " order by " (bindsEach_sortKeys keys))
      have hlimit := hkeys.append (binds_rowLimit kind (binds_limit offset) (binds_limit fetch))
      rw [← List.append_assoc] at hlimit
      exact ((Output.Binds.require _ _).text_append (.require _ _)).text_append hlimit

theorem bindsEach_groupMembers (lock : Option LockScope) (qs : List Query) :
    BindsEach (groupMembers .generic lock qs) (Query.listSlots qs) := by
  match qs with
  | [] => exact .nil
  | q :: qs => exact .cons (binds_member q (binds_query lock q)) (bindsEach_groupMembers lock qs)

end

theorem binds_searchClause (rule : SearchRule) (c : Option SearchClause) :
    (searchClause .generic rule c).Binds [] := by
  rw [searchClause.eq_def]
  split
  · rename_i search
    have hitems : BindsEach (search.items.map searchItem) [] :=
      .texts fun o ho => by
        obtain ⟨item, -, rfl⟩ := List.mem_map.1 ho
        exact (Output.Binds.name item.column).text_append (.when _ (.word " desc"))
    exact (((((Output.Binds.word " search ").text_append (.word _)).text_append
      (.word " by ")).text_append hitems.list).text_append (.word " set ")).text_append (.name _)
  · exact .empty

theorem binds_cycleClause (rule : CycleRule) (cte : String) (c : Option CycleClause) :
    (cycleClause .generic rule cte c).Binds [] := by
  rw [cycleClause.eq_def]
  split
  · exact .empty
  · rename_i cycle
    have hpath : (Output.clause " using " (cycle.pathColumn.map .name)).Binds [] := by
      cases cycle.pathColumn with
      | none => exact .empty
      | some column => exact (Output.Binds.word " using ").text_append (.name column)
    have hmark := (((Output.Binds.word " cycle ").text_append
      (Output.binds_nameList cycle.columns)).text_append (.word " set ")).text_append
      (.name cycle.markColumn)
    have hvalues := (((hmark.text_append (.word " to ")).text_append
      cycle.cycleValue.binds_pieces).text_append (.word " default ")).text_append
      cycle.nonCycleValue.binds_pieces
    exact hvalues.text_append hpath
  · exact fun _ => rfl

theorem binds_columnList (columns : List String) : (columnList columns).Binds [] := by
  rw [columnList]
  split
  · exact .empty
  · exact (Output.Binds.word " ").text_append (Output.binds_nameList columns).parenthesized

theorem binds_cte (c : Cte) : (cte .generic c).Binds c.query.slots :=
  ((((((Output.Binds.name c.name).text_append (binds_columnList c.columns)).text_append
    (.word " as ")).text_append .empty).text_append
    (binds_query none c.query).parenthesized).append_text
    (binds_searchClause _ c.search)).append_text (binds_cycleClause _ c.name c.cycle)

theorem binds_withClause (cs : List Cte) :
    (withClause .generic cs).Binds (cs.flatMap (·.query.slots)) := by
  cases cs with
  | nil => exact .empty
  | cons c cs =>
      have hlist := (BindsEach.map (c :: cs) fun c _ => binds_cte c).list
      rw [withClause, List.isEmpty_cons, if_neg nofun]
      refine Output.Binds.append_text (Output.Binds.text_append ?_ hlist) (.word " ")
      refine ((Output.Binds.require _ _).text_append (.word "with ")).text_append ?_
      split
      · exact (Output.Binds.require _ _).text_append (.when _ (.word "recursive "))
      · exact .empty

theorem binds_select (lock : Option LockScope) (s : SelectStatement) :
    (select .generic lock s).Binds s.slots :=
  (binds_withClause s.ctes).append (binds_query lock s.query)

theorem binds_insertSource (columns : List String) (source : InsertSource) :
    (insertSource .generic columns source).Binds source.slots := by
  cases source with
  | defaultValues => exact (Output.Binds.require _ _).text_append (.word " default values")
  | values rows =>
      have hrows : BindsEach (rows.map (insertRow .generic columns)) (rows.flatMap Expr.listSlots) :=
        .map rows fun row _ =>
          (Output.Binds.require _ _).text_append (bindsEach_operands row).list.parenthesized
      exact (((Output.Binds.require _ _).text_append (binds_columnList columns)).text_append
        (.word " values ")).text_append hrows.list
  | query s =>
      exact ((binds_columnList columns).text_append (.word " ")).text_append (binds_select none s)

theorem binds_whereClause (p : Option Predicate) :
    (whereClause .generic p).Binds (Predicate.optionSlots p) :=
  binds_condition " where " (binds_optionalPredicate p)

theorem binds_update (s : UpdateStatement) :
    (update .generic s).Binds (Statement.update s).slots := by
  have hassignments : BindsEach (s.assignments.map (assignment .generic))
      (s.assignments.flatMap (·.value.slots)) :=
    .map s.assignments fun a _ =>
      ((Output.Binds.name a.column).text_append (.word "=")).text_append
        (binds_operand a.value).output
  exact (((((Output.Binds.require _ _).text_append (.word "update ")).text_append
    (binds_namedTable s.target)).text_append (.word " set ")).text_append
    hassignments.list).append (binds_whereClause s.restriction)

theorem binds_statement (l : LockOptions) (s : Statement) :
    (statement .generic l s).Binds s.slots := by
  cases s with
  | select s => exact binds_select _ s
  | insert s =>
      exact ((Output.Binds.word "insert into ").text_append (binds_namedTable s.target)).text_append
        (binds_insertSource s.columns s.source)
  | update s => exact binds_update s
  | delete s =>
      exact ((Output.Binds.word "delete from ").text_append (binds_namedTable s.target)).text_append
        (binds_whereClause s.restriction)

end Render

/-- The generic dialect binds each parameter once, in the order of the clauses. -/
theorem parameters_eq_slots (s : Statement) (l : LockOptions) (t : TranslatedSql)
    (h : translateWithLock .generic s l = .ok t) : t.parameters = s.slots := by
  obtain ⟨hok, rfl⟩ := Locking.translate_ok.1 h
  exact Render.binds_statement l s hok

/-- Both joins of the root come before the join below the first of them. -/
theorem parameters_eq_slots_joins :
    let slot (n : Int64) := BindSlot.value (.int n)
    let matching (n : Int64) := Predicate.like (.column none "name") (.parameter (slot n)) none false
    let table (name : String) (joins : List TableJoin) : TableGroup :=
      ⟨.named ⟨none, name⟩, none, joins⟩
    let inner (g : TableGroup) (n : Int64) : TableJoin := ⟨.inner, g, some (matching n), false⟩
    let names : QuerySpec := ((QuerySpec.empty.select (.column none "name") none).addRoot
      (table "person" [inner (table "address" [inner (table "city" []) 3]) 1,
        inner (table "phone" []) 2])).restrict (.inList (.parameter (slot 4)) [] true)
    ∃ t, translateWithLock .generic (.select ⟨[], .spec names⟩) .unlocked = .ok t ∧
      t.parameters = Statement.slots (.select ⟨[], .spec names⟩) ∧
      t.parameters = [slot 1, slot 2, slot 3] := by
  intro slot matching table inner names
  have htranslate : translateWithLock .generic (.select ⟨[], .spec names⟩) .unlocked = .ok _ :=
    Locking.translate_ok.2 ⟨by decide, rfl⟩
  exact ⟨_, htranslate, parameters_eq_slots _ _ _ htranslate, by decide⟩

end DialectSql
