import DialectSql.Proofs.Alike.Comparison
import DialectSql.Proofs.Alike.RowLimit
import DialectSql.Proofs.Locking.Chunks

namespace DialectSql

open Output

variable {L : Likeness} {d : Dialect} {P : Pairing L d} {g : Gates} {a a' b b' : Output}
  {os os' : List Output}

theorem FrameBound.unquoted_sql (bound : FrameBound) : Unquoted bound.sql := by
  cases bound with
  | preceding n | following n => exact .append (.nat _) (by decide)
  | _ => decide

theorem WindowFrame.isSeparator_sql (frame : WindowFrame) : IsSeparator frame.sql := by
  obtain ⟨unit, start, stop⟩ := frame
  have hunit : IsSeparator (unit.sql ++ " ") := by cases unit <;> decide
  have hbounds {bounds : String} (h : Unquoted bounds) : IsSeparator (unit.sql ++ " " ++ bounds) :=
    ⟨fun he => hunit.1 (String.append_eq_empty_iff.1 he).1, hunit.2.append h⟩
  cases stop with
  | none => exact hbounds start.unquoted_sql
  | some stop =>
      exact hbounds (((Unquoted.append (by decide) start.unquoted_sql).append (by decide)).append
        stop.unquoted_sql)

theorem SortKey.AllAlike.isEmpty_eq {ks ks' : List SortKey} (h : SortKey.AllAlike L ks ks') :
    ks.isEmpty = ks'.isEmpty := by
  cases h <;> rfl

theorem Expr.AllAlike.isEmpty_eq {es es' : List Expr} (h : Expr.AllAlike L es es') :
    es.isEmpty = es'.isEmpty := by
  cases h <;> rfl

theorem Predicate.OptionAlike.isSome_eq {p p' : Option Predicate}
    (h : Predicate.OptionAlike L p p') : p.isSome = p'.isSome := by
  cases h <;> rfl

theorem Expr.OptionAlike.isSome_eq {e e' : Option Expr} (h : Expr.OptionAlike L e e') :
    e.isSome = e'.isSome := by
  cases h <;> rfl

theorem Query.Alike.isApart_eq {q q' : Query} (h : q.Alike L q') :
    Render.isApart q = Render.isApart q' := by
  cases h with
  | group => rfl
  | spec hs =>
      obtain ⟨_, _, _, _, _, _, _, hk, ho, hf⟩ := hs
      simp only [Render.isApart, Query.hasRowLimit, Query.offset, Query.fetch, hk.isEmpty_eq,
        ho.isSome_eq, hf.isSome_eq]

namespace Render

theorem paired_qualified {q : Option String} (hq : L.optionalName q) (h : P.led a a') :
    P.led (qualified q a) (qualified q a') := by
  cases q with
  | none => exact h
  | some n => exact P.led_append (P.led_append (P.name (hq n rfl)) (P.word (by decide))) h

theorem summarization_eq (d : Dialect) (kind : SummarizationKind) (groupings : List Output) :
    summarization d kind groupings =
      .require (d.capabilities.summarization == .native) (.unsupported (.summarization kind)) ++
        (.word kind.sql ++ (Output.list groupings).parenthesized) := by
  rw [summarization]
  cases d.capabilities.summarization with
  | native => exact (empty_append _).symm
  | unsupported => exact (append_of_failure rfl _).symm

theorem paired_summarization (hg : P.Opens g) (kind : SummarizationKind) (h : P.AllWhole os os') :
    P.led (summarization d kind os) (summarization (d.withGates g) kind os') := by
  have hkind : IsSeparator kind.sql := by cases kind <;> decide
  rw [summarization_eq, summarization_eq]
  exact P.led_append (P.require _ hg.summarization)
    (P.led_append (P.word hkind) (P.parenthesized (P.list h)))

theorem paired_wrap (condition : Bool) (h : P.whole a a') :
    P.whole (wrap condition a) (wrap condition a') := by
  cases condition
  · exact h
  · exact P.whole_of_led (P.parenthesized h)

theorem paired_binary {l l' r r' : Expr} (op : BinaryOp) (hl : l.Alike L l') (hr : r.Alike L r')
    (ha : P.whole a a') (hb : P.whole b b') :
    P.whole (binary l op r a b) (binary l' op r' a' b') := by
  have hshape {e e' : Expr} (h : e.Alike L e') (isRight : Bool) :
      needsParens op isRight e = needsParens op isRight e' := by
    cases h <;> rfl
  have hop : IsSeparator op.sql := by cases op <;> decide
  have hblank := P.word (w := " ") (by decide)
  have hleft := P.whole_append (paired_wrap (needsParens op false l') ha) hblank
  rw [binary, binary, hshape hl, hshape hr]
  exact P.between (by decide) (P.whole_append hleft (P.word hop)) (paired_wrap _ hb)

theorem paired_negation {e e' : Expr} (h : e.Alike L e') (ha : P.whole a a') :
    P.led (negation e a) (negation e' a') := by
  have hplain := P.word_append (w := "-") (by decide) ha
  have hwrapped := P.word_append (w := "-") (by decide) (P.whole_of_led (P.parenthesized ha))
  cases h with
  | binary | negate => exact hwrapped
  | _ => exact hplain

theorem paired_call {name : String} (hn : L.name name) (distinct : Bool) (h : P.AllWhole os os') :
    P.led (call name os distinct) (call name os' distinct) := by
  have hargs := P.when_append (w := "distinct ") distinct (by decide) (P.list h)
  have hopen := P.led_append (P.name hn) (P.word_append (w := "(") (by decide) hargs)
  simp only [call, append_assoc] at hopen ⊢
  simpa only [append_assoc] using P.led_append hopen (P.word (w := ")") (by decide))

theorem paired_caseOf {otherwise otherwise' : Option Output} (h : P.AllLed os os')
    (ho : Option.Rel P.whole otherwise otherwise') :
    P.led (caseOf os otherwise) (caseOf os' otherwise') := by
  have hbranches := P.led_append (P.word (w := "case") (by decide)) (P.concat h)
  rw [caseOf, caseOf, show os.isEmpty = os'.isEmpty by cases h <;> rfl]
  split
  · exact P.fail _
  · refine P.led_append (P.led_append hbranches ?_) (P.word (by decide))
    cases ho with
    | none => exact P.clause_none _
    | some ho => exact P.clause_some (by decide) ho

theorem paired_windowed {keys keys' : List Output} (frame : Option WindowFrame)
    (hf : P.whole a a') (h : P.AllWhole os os') (hk : P.AllWhole keys keys') :
    P.whole (windowed a os keys frame) (windowed a' os' keys' frame) := by
  have hclause {w : String} (hw : IsSeparator w) {ps ps' : List Output} (h : P.AllWhole ps ps') :
      P.AllWhole (if ps.isEmpty then [] else [.word w ++ .list ps])
        (if ps'.isEmpty then [] else [.word w ++ .list ps']) := by
    cases h with
    | nil => exact .nil
    | cons ho hos =>
        exact .cons (P.whole_of_led (P.word_append hw (P.list (.cons ho hos)))) .nil
  have hframe : P.AllWhole (frame.toList.map fun f => .word f.sql)
      (frame.toList.map fun f => .word f.sql) :=
    (P.allLed_map fun f _ => P.word f.isSeparator_sql).allWhole
  have hpartition := hclause (w := "partition by ") (by decide) h
  have horder := hclause (w := "order by ") (by decide) hk
  have hclauses := List.rel_append (List.rel_append hpartition horder) hframe
  exact P.between (by decide) hf (P.whole_of_led (P.parenthesized (P.joined (by decide) hclauses)))

theorem paired_partitionItem (rule : PartitionRule) {e e' : Expr} (he : e.Alike L e')
    (h : P.whole a a') : P.whole (partitionItem rule e a) (partitionItem rule e' a') := by
  have hempty := P.whole_of_led (P.word (w := "()") (by decide))
  have hzeros := P.between (w := " || ") (by decide) P.zero P.zero
  have hfail := P.whole_of_led (P.fail (.unsupported .summarizedPartition))
  cases rule with
  | standard =>
      cases he with
      | literal => exact hempty
      | _ => exact h
  | expression =>
      cases he with
      | literal => exact hzeros
      | summarization => exact hfail
      | _ => exact h

theorem paired_sortKey (direction : OrderDirection) (nulls : Option NullOrdering)
    (h : P.whole a a') : P.whole (sortKey d direction nulls a) (sortKey d direction nulls a') := by
  have hdescending := P.when (direction == .desc) (P.word (w := " desc") (by decide))
  have hplain := P.whole_append h hdescending
  cases nulls with
  | none => exact hplain
  | some nulls =>
      rw [sortKey.eq_def, sortKey.eq_def]
      dsimp only
      split
      · exact P.between (by decide) hplain (P.whole_of_led (P.word (by cases nulls <;> decide)))
      · have htest := P.led_append (P.word_append (w := "case when ") (by decide) h)
          (P.word (w := " is null then ") (by decide))
        have hbranches {n m : String} (hn : IsSeparator n) (hm : IsSeparator m) :=
          P.led_between (w := " else ") (by decide) (P.led_append htest (P.word hn))
            (P.whole_of_led (P.word hm))
        cases nulls with
        | first | last =>
            exact P.whole_of_led (P.led_append
              (P.led_between (by decide) (hbranches (by decide) (by decide)) h) hdescending)

theorem paired_orderBy (h : P.AllWhole os os') : P.led (orderBy os) (orderBy os') := by
  cases h with
  | nil => exact P.empty
  | cons ho hos => exact P.word_append (by decide) (P.list (.cons ho hos))

theorem paired_nullCheck {e e' : Operand} (negated : Bool) (h : e.Paired P e') :
    P.whole (nullCheck e negated) (nullCheck e' negated) := by
  have hsingle := Comparison.paired_nullTest negated h
  cases h with
  | tuple hs =>
      have htests := P.allWhole_map hs.forall₂ (Comparison.paired_nullTest negated)
      rw [nullCheck, nullCheck, hs.length_eq]
      split
      · exact P.whole_of_led (P.parenthesized (P.joined (by decide) htests))
      · exact hsingle
  | _ => exact hsingle

theorem isSeparator_membership (negated : Bool) : IsSeparator (membership negated) := by
  cases negated <;> decide

theorem checkArities_congr (n : Nat) {items items' : List Operand}
    (h : Operand.AllPaired P items items') : checkArities n items = checkArities n items' := by
  have hlengths : (items.map fun i => i.elements.length) = items'.map fun i => i.elements.length :=
    List.forall₂_eq_eq_eq ▸ (List.forall₂_map_left_iff.2 (List.forall₂_map_right_iff.2
      (h.forall₂.imp fun _ _ hi => hi.elements.length_eq)))
  have hsplit (items : List Operand) : checkArities n items =
      .concat ((items.map fun i => i.elements.length).map (checkArity n)) := by
    rw [checkArities, List.map_map]
    rfl
  rw [hsplit, hsplit, hlengths]

theorem pieces_checkArities (n : Nat) (items : List Operand) :
    (checkArities n items).pieces = [] := by
  rw [checkArities]
  induction items with
  | nil => rfl
  | cons i items ih =>
      obtain hfailure | ⟨e, hfailure⟩ := Option.eq_none_or_eq_some (checkArity n i.elements.length).failure
      · rw [List.map_cons, concat, pieces_append hfailure, pieces_checkArity, ih]
        rfl
      · rw [List.map_cons, concat, append_of_failure hfailure, pieces_checkArity]

theorem paired_inList {e e' : Operand} {items items' : List Operand} (negated : Bool)
    (h : e.Paired P e') (hs : Operand.AllPaired P items items') :
    P.whole (inList d e items negated) (inList (d.withGates g) e' items' negated) := by
  have hnative := P.whole_append
    (P.between (isSeparator_membership negated) h.output (P.list hs.outputs))
    (P.word (w := ")") (by decide))
  have hnot := P.when negated (P.word (w := "not ") (by decide))
  rw [inList.eq_def, inList.eq_def, hs.isEmpty_eq]
  split
  · exact P.whole_of_led (P.word (.ite (by decide) (by decide)))
  · cases h with
    | tuple he =>
        have hrows := P.allWhole_map hs.forall₂ fun hi =>
          P.whole_of_led (Comparison.paired_tuples (g := g) .equal false he hi.elements)
        have hdisjunction := P.parenthesized (P.joined (w := " or ") (by decide) hrows)
        dsimp only
        rw [he.length_eq, checkArities_congr _ hs]
        exact P.checked (pieces_checkArities _ _)
          (P.whole_ite hnative (P.whole_of_led (P.led_append hnot hdisjunction)))
    | _ => exact hnative

theorem paired_inSubquery {e e' : Operand} {q q' : Subquery} (negated : Bool) (h : e.Paired P e')
    (hq : q.Paired P q') :
    P.whole (inSubquery d e q negated) (inSubquery (d.withGates g) e' q' negated) := by
  have hnative := P.whole_append (P.between (isSeparator_membership negated) h.output
    (P.whole_of_led hq.output)) (P.word (w := ")") (by decide))
  cases h with
  | tuple he =>
      have hexists := Comparison.paired_subquery (g := g) .equal .any negated he hq
      rw [inSubquery, inSubquery]
      exact P.whole_ite hnative (P.whole_of_led hexists)
  | _ => exact hnative

theorem paired_between {e e' low low' high high' : Operand} (negated : Bool) (h : e.Paired P e')
    (hl : low.Paired P low') (hh : high.Paired P high') :
    P.whole (between d e low high negated) (between (d.withGates g) e' low' high' negated) := by
  have hnot := P.when negated (P.word (w := "not ") (by decide))
  have hlow := Comparison.paired_tuples (g := g) .greaterThanOrEqual true h.elements hl.elements
  have hhigh := Comparison.paired_tuples (g := g) .lessThanOrEqual true h.elements hh.elements
  have hbounds := P.parenthesized (P.between (w := " and ") (by decide) (P.whole_of_led hlow)
    (P.whole_of_led hhigh))
  have hrange := P.between (w := if negated then " not between " else " between ")
    (.ite (by decide) (by decide)) h.output hl.output
  rw [between, between, h.isTuple, hl.isTuple, hh.isTuple, h.elements.length_eq,
    hl.elements.length_eq, hh.elements.length_eq]
  have harity := P.led_append (P.checkArity e'.elements.length low'.elements.length)
    (P.checkArity e'.elements.length high'.elements.length)
  exact P.whole_ite (P.whole_of_led (P.led_append (P.led_append harity hnot) hbounds))
    (P.between (by decide) hrange hh.output)

theorem paired_like {escape escape' : Option Char} (negated : Bool) (ha : P.whole a a')
    (hb : P.whole b b') (he : Option.Rel L.escape escape escape') :
    P.whole (like a b escape negated) (like a' b' escape' negated) := by
  refine P.whole_append (P.between (.ite (by decide) (by decide)) ha hb) ?_
  cases he with
  | none => exact P.empty
  | some hc => exact P.word_append (by decide) (P.escape hc)

/-- Members of a junction that need parentheses alike. -/
def MembersPaired (P : Pairing L d) (ms ms' : List (Bool × Output)) : Prop :=
  List.Forall₂ (fun m m' => m.1 = m'.1 ∧ P.whole m.2 m'.2) ms ms'

theorem paired_junction (nature : JunctionNature) {ms ms' : List (Bool × Output)}
    (h : MembersPaired P ms ms') : P.whole (junction nature ms) (junction nature ms') := by
  have hseparator : IsSeparator nature.separator := by cases nature <;> decide
  cases h with
  | nil => exact P.whole_of_led (P.word (by cases nature <;> decide))
  | cons hm hms =>
      cases hms with
      | nil => exact hm.2
      | cons hn hns =>
          refine P.joined hseparator (P.allWhole_map (.cons hm (.cons hn hns)) ?_)
          rintro ⟨compound, o⟩ ⟨compound', o'⟩ ⟨rfl, ho⟩
          exact paired_wrap compound ho

theorem paired_selectList (distinct : Bool) (h : P.AllWhole os os') :
    P.whole (selectList distinct os) (selectList distinct os') := by
  refine P.when_append distinct (by decide) ?_
  cases h with
  | nil => exact P.whole_of_led (P.word (by decide))
  | cons ho hos => exact P.list (.cons ho hos)

theorem paired_selectListOf {offset offset' fetch fetch' : Option Limit} (kind : FetchKind)
    (ho : Option.Rel (Limit.Paired P) offset offset')
    (hf : Option.Rel (Limit.Paired P) fetch fetch') (h : P.whole a a') :
    P.whole (selectListOf d offset fetch kind a)
      (selectListOf (d.withGates g) offset' fetch' kind a') := by
  have hrange := RowLimit.paired_rowsTo_append kind ho hf h
  have hrule : (d.withGates g).strategies = d.strategies := rfl
  rw [selectListOf, selectListOf, hrule]
  cases d.strategies.selectList with
  | standard => exact h
  | rowsTo => exact hrange

theorem paired_namedTable {t : NamedTable} (h : t.Named L) : P.led (namedTable t) (namedTable t) :=
  paired_qualified h.1 (P.table h.2)

/-- Both predicates are junctions without members, or neither is. -/
def SameEmptiness (p p' : Predicate) : Prop := p.isEmpty = p'.isEmpty

theorem paired_condition {w : String} (hw : IsSeparator w) {p p' : Option Predicate}
    {o o' : Option Output} (hp : Option.Rel SameEmptiness p p')
    (ho : Option.Rel P.whole o o') : P.led (condition w p o) (condition w p' o') := by
  have hclause : P.led (.clause w o) (.clause w o') := by
    cases ho with
    | none => exact P.clause_none w
    | some ho => exact P.clause_some hw ho
  cases hp with
  | none => exact P.empty
  | some hp =>
      rw [condition, condition, show _ = _ from hp]
      exact P.led_ite P.empty hclause

theorem checkCrossJoin_congr {p p' : Option Predicate}
    (hp : Option.Rel SameEmptiness p p') :
    checkCrossJoin p = checkCrossJoin p' := by
  cases hp with
  | none => rfl
  | some hp => exact congrArg (require · _) hp

theorem paired_joinHead (hg : P.Opens g) (type : JoinType) {p p' : Option Predicate}
    (lateral : Bool) (hp : Option.Rel SameEmptiness p p') :
    P.led (joinHead d type p lateral) (joinHead (d.withGates g) type p' lateral) := by
  have htype : IsSeparator type.sql := by cases type <;> decide
  have hjoin := P.led_append (P.led_append (P.word (w := " ") (by decide)) (P.word htype))
    (P.word (w := " join ") (by decide))
  have hcross : P.led (checkCrossJoin p') (checkCrossJoin p') := P.require_self _ _
  have hlateral := P.word (w := "lateral ") (by decide)
  have hrule : (d.withGates g).strategies = d.strategies := rfl
  rw [joinHead, joinHead, hrule, checkCrossJoin_congr hp]
  cases d.strategies.join with
  | standard =>
      exact P.led_append (P.led_append hjoin
        (P.when lateral (P.led_append (P.require .lateral hg.lateral) hlateral)))
        (P.when _ hcross)
  | commaForCross =>
      exact P.led_append (P.led_ite (P.led_append hcross (P.word (by decide))) hjoin)
        (P.when lateral hlateral)

theorem paired_joinCondition (type : JoinType) {p p' : Option Predicate} (lateral : Bool)
    {o o' : Option Output} (hp : Option.Rel SameEmptiness p p')
    (ho : Option.Rel P.whole o o') :
    P.led (joinCondition d type p lateral o) (joinCondition (d.withGates g) type p' lateral o') := by
  have hon : P.led (.clause " on " o) (.clause " on " o') := by
    cases ho with
    | none => exact P.clause_none _
    | some ho => exact P.clause_some (by decide) ho
  have htrue := P.led_append (P.word (w := " on ") (by decide))
    (P.word (w := JunctionNature.conjunction.emptySql) (by decide))
  cases hp with
  | none => exact P.led_ite P.empty (P.led_ite hon (P.led_ite htrue P.empty))
  | some hp =>
      simp only [joinCondition, show _ = _ from hp]
      exact P.led_ite P.empty (P.led_ite hon (P.led_ite htrue P.empty))

theorem paired_mergeLevels {as as' bs bs' : List (List Output)} (ha : List.Forall₂ P.AllLed as as')
    (hb : List.Forall₂ P.AllLed bs bs') :
    List.Forall₂ P.AllLed (mergeLevels as bs) (mergeLevels as' bs') := by
  induction ha generalizing bs bs' with
  | nil => exact hb
  | cons h hs ih =>
      cases hb with
      | nil => exact .cons h hs
      | cons k ks => exact .cons (List.rel_append h k) (ih ks)

theorem paired_member {q q' : Query} (hq : q.Alike L q') (h : P.led a a') :
    P.led (member d q a) (member (d.withGates g) q' a') := by
  have hgroup := P.parenthesized (P.whole_of_led h)
  have hblank := P.led_append (P.led_append (P.word (w := "select * from ") (by decide)) hgroup)
    (P.word (w := " ") (by decide))
  have hderived := P.led_append hblank (P.unit (p := .derivedAlias) trivial rfl)
  have hsplit (q : Query) (o : Output) : member d q o = if isApart q then
      if d.capabilities.simpleQueryGrouping then o.parenthesized
      else .word "select * from " ++ o.parenthesized ++ .word " " ++ .ofPieces [.derivedAlias]
    else o := rfl
  change P.led (member d q a) (member d q' a')
  rw [hsplit, hsplit, hq.isApart_eq]
  exact P.led_ite (P.led_ite hgroup hderived) h

theorem paired_membersJoined (ho : P.led a a') (h : P.AllLed os os') :
    P.led (membersJoined a os) (membersJoined a' os') := by
  have hblank := P.word (w := " ") (by decide)
  induction h with
  | nil => exact P.empty
  | cons h hs ih =>
      cases hs with
      | nil => exact h
      | cons k ks =>
          exact P.led_append (P.led_append (P.led_append (P.led_append h hblank) ho) hblank) ih

theorem paired_setOperation (hg : P.Opens g) (operator : SetOperator) {sorts sorts' : List Output}
    {offset offset' fetch fetch' : Option Limit} (kind : FetchKind) (h : P.AllLed os os')
    (hs : P.AllWhole sorts sorts') (ho : Option.Rel (Limit.Paired P) offset offset')
    (hf : Option.Rel (Limit.Paired P) fetch fetch') :
    P.led (setOperation d operator os sorts offset fetch kind)
      (setOperation (d.withGates g) operator os' sorts' offset' fetch' kind) := by
  have hword : P.led (setOperatorText d operator) (setOperatorText d operator) := by
    cases operator with
    | except | exceptAll => exact P.word (.ite (by decide) (by decide))
    | _ => exact P.word (by decide)
  have hbody := paired_membersJoined hword h
  have hsorts := paired_orderBy hs
  have hplain := P.led_append (P.led_append hbody hsorts)
    (RowLimit.paired_clause hg kind ho hf)
  have hselect : P.led
      (.word "select " ++ RowLimit.rowsTo d offset fetch kind ++ .word "* from ")
      (.word "select " ++ RowLimit.rowsTo d offset' fetch' kind ++ .word "* from ") := by
    rw [append_assoc, append_assoc]
    exact P.word_append (by decide)
      (RowLimit.paired_rowsTo_append kind ho hf (P.whole_of_led (P.word (by decide))))
  have hinner := P.led_append (P.led_append hselect (P.parenthesized (P.whole_of_led hbody)))
    (P.word (w := " ") (by decide))
  have hderived := P.led_append (P.led_append hinner (P.unit (p := .derivedAlias) trivial rfl)) hsorts
  have hoperator : P.led (checkSetOperator d operator)
      (checkSetOperator (d.withGates g) operator) := by
    rw [checkSetOperator, checkSetOperator, Bool.or_comm d.capabilities.intersectExceptAll,
      Bool.or_comm (d.withGates g).capabilities.intersectExceptAll]
    exact P.require_or _ _ hg.intersectExceptAll
  rw [setOperation, setOperation, List.Forall₂.length_eq h,
    show offset.isSome = offset'.isSome by cases ho <;> rfl,
    show fetch.isSome = fetch'.isSome by cases hf <;> rfl]
  exact P.led_append (P.led_append (P.require_self _ _) hoperator) (P.led_ite hderived hplain)

theorem paired_fromClause (h : P.AllLed os os') :
    P.led (fromClause d os) (fromClause (d.withGates g) os') := by
  cases h with
  | nil =>
      have hmissing : P.led (missingFrom d) (missingFrom d) := by
        rw [missingFrom]
        refine P.led_ite ?_ P.empty
        cases hname : d.capabilities.dualTable with
        | none => exact P.empty
        | some dual =>
            exact P.led_append (P.word (by decide)) (P.name (P.dual dual hname))
      exact hmissing
  | cons ho hos => exact P.word_append (by decide) (P.list (Pairing.AllLed.allWhole (.cons ho hos)))

end Render

namespace Locking

theorem paired_timeoutOutput (locking : LockingCapabilities) (timeout : LockTimeout) :
    P.led (timeoutOutput locking timeout) (timeoutOutput locking timeout) := by
  cases timeout with
  | wait => exact P.empty
  | noWait | skipLocked => exact P.when _ (P.word (by decide))
  | seconds n =>
      exact P.when _ (P.led_append (P.word (by decide)) (P.integer n.toNat))

theorem paired_render (scope : LockScope) (aggregating : Bool)
    (h : L.names scope.options.aliases) :
    P.led (render d scope aggregating) (render (d.withGates g) scope aggregating) := by
  have hrender : P.led (render d scope aggregating) (render d scope aggregating) := by
    have haliases := P.led_append (P.word (w := " of ") (by decide)) (P.nameList h)
    rw [render]
    refine P.led_ite P.empty (P.led_ite (P.unit trivial rfl) ?_)
    split
    · exact P.fail _
    · exact P.unit trivial rfl
    · exact P.led_append (P.led_append (P.word (.ite (by decide) (by decide)))
        (P.when _ haliases)) (paired_timeoutOutput _ _)
  exact hrender

end Locking

end DialectSql
