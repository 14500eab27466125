import DialectSql.Proofs.Alike.Clause

namespace DialectSql

open Output

variable {L : Likeness} {d : Dialect} {P : Pairing L d} {g : Gates}

mutual

theorem Predicate.Alike.isCompound_eq {p p' : Predicate} :
    p.Alike L p' → Render.isCompound p = Render.isCompound p'
  | .junction _ h => h.isCompoundList_eq
  | .comparison .. | .negated _ | .nullCheck .. | .inList .. | .inSubquery .. | .exists ..
  | .between .. | .like .. | .likeEscape .. | .boolean _ => rfl

theorem Predicate.AllAlike.isCompoundList_eq {ps ps' : List Predicate} :
    Predicate.AllAlike L ps ps' → Render.isCompoundList ps = Render.isCompoundList ps'
  | .nil => rfl
  | .cons h .nil => h.isCompound_eq
  | .cons _ (.cons _ _) => rfl

end

theorem Expr.AllAlike.length_eq {es es' : List Expr} :
    Expr.AllAlike L es es' → es.length = es'.length
  | .nil => rfl
  | .cons _ hs => congrArg (· + 1) hs.length_eq

theorem Predicate.Alike.sameEmptiness {p p' : Predicate} (h : p.Alike L p') :
    Render.SameEmptiness p p' := by
  cases h with
  | junction _ h => cases h <;> rfl
  | _ => rfl

theorem Predicate.OptionAlike.sameEmptiness {p p' : Option Predicate}
    (h : Predicate.OptionAlike L p p') : Option.Rel Render.SameEmptiness p p' := by
  cases h with
  | none => exact .none
  | some h => exact .some h.sameEmptiness

theorem Limit.paired_ofExpr {e e' : Expr} {o o' : Output} (he : e.Alike L e')
    (ho : P.whole o o') : (Limit.ofExpr e o).Paired P (Limit.ofExpr e' o') := by
  cases he with
  | @literal v v' h =>
      have hnumber (v : SqlValue) (o : Output) : Limit.ofExpr (.literal v) o = ⟨o, v.int?, false⟩ := by
        cases v <;> rfl
      rw [hnumber, hnumber]
      exact ⟨ho, P.int? h, rfl⟩
  | parameter s =>
      have hnumber (o : Output) : Limit.ofExpr (.parameter s) o =
          ⟨o, (Limit.ofExpr (.parameter s) .empty).number,
            (Limit.ofExpr (.parameter s) .empty).isParameter⟩ := by
        obtain v | _ := s
        · cases v <;> rfl
        · rfl
      rw [hnumber o, hnumber o']
      exact ⟨ho, rfl, rfl⟩
  | _ => exact ⟨ho, rfl, rfl⟩

namespace Render

/-- The lock of the statement names no aliases but allowed ones. -/
def LockNamed (L : Likeness) (lock : Option LockScope) : Prop :=
  ∀ scope ∈ lock, L.names scope.options.aliases

theorem lockNamed_none : LockNamed L none := fun _ h => nomatch h

theorem LockNamed.inner {lock : Option LockScope} (h : LockNamed L lock) :
    LockNamed L (lock.map fun scope => { scope with underSetOperation := true }) := by
  cases lock with
  | none => exact lockNamed_none
  | some scope => exact fun _ hscope => Option.some.inj hscope ▸ h scope rfl

theorem paired_lock {lock : Option LockScope} (aggregating : Bool) : LockNamed L lock →
    P.led (match lock with
        | some scope => Locking.render d scope aggregating
        | none => .empty)
      (match lock with
        | some scope => Locking.render (d.withGates g) scope aggregating
        | none => .empty) := by
  intro h
  cases lock with
  | none => exact P.empty
  | some scope => exact Locking.paired_render scope aggregating (h scope rfl)

theorem paired_nonempty {p p' : Option Predicate} {o o' : Option Output} :
    Predicate.OptionAlike L p p' → Option.Rel P.whole o o' → Option.Rel P.whole
      (match p with
        | some p => if p.isEmpty then none else o
        | none => none)
      (match p' with
        | some p => if p.isEmpty then none else o'
        | none => none) := by
  intro hp ho
  cases hp with
  | none => exact .none
  | some hp =>
      simp only [show _ = _ from hp.sameEmptiness]
      split
      · exact .none
      · exact ho

/-- Items of a select list and their labels. -/
def ItemsPaired (P : Pairing L d) (items items' : List (Operand × Output)) : Prop :=
  List.Forall₂ (fun i i' => i.1.Paired P i'.1 ∧ P.led i.2 i'.2) items items'

theorem ItemsPaired.outputs {items items' : List (Operand × Output)} (h : ItemsPaired P items items') :
    P.AllWhole (items.map fun (o, a) => o.output ++ a) (items'.map fun (o, a) => o.output ++ a) :=
  P.allWhole_map h fun hi => P.whole_append hi.1.output hi.2

theorem ItemsPaired.operands {items items' : List (Operand × Output)}
    (h : ItemsPaired P items items') :
    Operand.AllPaired P (items.map (·.1)) (items'.map (·.1)) := by
  induction h with
  | nil => exact .nil
  | cons hi _ ih => exact .cons hi.1 ih

mutual

theorem paired_operand (hg : P.Opens g) {e e' : Expr} :
    e.Alike L e' → (operand d e).Paired P (operand (d.withGates g) e')
  | .column hq hn => .scalar (P.whole_of_led (paired_qualified hq (P.name hn)))
  | .literal h => .scalar (P.literal h)
  | .parameter _ => .scalar (P.whole_of_led (P.unit trivial rfl))
  | .tuple h => .tuple (paired_operands hg h)
  | .summarization kind h =>
      .scalar (P.whole_of_led (paired_summarization hg kind (paired_operands hg h).outputs))
  | .binary op hl hr =>
      .scalar (paired_binary op hl hr (paired_operand hg hl).output (paired_operand hg hr).output)
  | .negate h => .scalar (P.whole_of_led (paired_negation h (paired_operand hg h).output))
  | .function distinct hn h =>
      .scalar (P.whole_of_led (paired_call hn distinct (paired_operands hg h).outputs))
  | .case hb .none => .scalar (P.whole_of_led (paired_caseOf (paired_whenClauses hg hb) .none))
  | .case hb (.some h) => .scalar (P.whole_of_led
      (paired_caseOf (paired_whenClauses hg hb) (.some (paired_operand hg h).output)))
  | .cast h ht =>
      have hvalue := P.led_append
        (P.word_append (w := "cast(") (by decide) (paired_operand hg h).output)
        (P.word (w := " as ") (by decide))
      .scalar (P.whole_of_led (P.led_append (P.led_append hvalue (P.type ht)) (P.word (by decide))))
  | .subquery h => .subquery (paired_query hg lockNamed_none h)
  | .quantified k h => .quantified k (paired_query hg lockNamed_none h)
  | .windowed frame hf he hk =>
      .scalar (paired_windowed frame (paired_operand hg hf).output (paired_partition hg he)
        (paired_sortKeys hg hk))
  | .star hq => .scalar (P.whole_of_led (paired_qualified hq (P.word (by decide))))

theorem paired_operands (hg : P.Opens g) {es es' : List Expr} :
    Expr.AllAlike L es es' → Operand.AllPaired P (operands d es) (operands (d.withGates g) es')
  | .nil => .nil
  | .cons h hs => .cons (paired_operand hg h) (paired_operands hg hs)

theorem paired_partition (hg : P.Opens g) {es es' : List Expr} :
    Expr.AllAlike L es es' → P.AllWhole (partition d es) (partition (d.withGates g) es')
  | .nil => .nil
  | .cons h hs =>
      .cons (paired_partitionItem d.strategies.partition h (paired_operand hg h).output)
        (paired_partition hg hs)

theorem paired_whenClauses (hg : P.Opens g) {bs bs' : List WhenClause} :
    WhenClause.AllAlike L bs bs' → P.AllLed (whenClauses d bs) (whenClauses (d.withGates g) bs')
  | .nil => .nil
  | .cons hp he hs =>
      .cons (P.led_between (by decide) (P.word_append (by decide) (paired_predicate hg hp))
        (paired_operand hg he).output) (paired_whenClauses hg hs)

theorem paired_sortKeys (hg : P.Opens g) {ks ks' : List SortKey} :
    SortKey.AllAlike L ks ks' → P.AllWhole (sortKeys d ks) (sortKeys (d.withGates g) ks')
  | .nil => .nil
  | .cons direction nulls h hs =>
      .cons (paired_sortKey direction nulls (paired_operand hg h).output) (paired_sortKeys hg hs)

theorem paired_limit (hg : P.Opens g) {e e' : Option Expr} :
    Expr.OptionAlike L e e' →
      Option.Rel (Limit.Paired P) (limit d e) (limit (d.withGates g) e')
  | .none => .none
  | .some h => .some (Limit.paired_ofExpr h (paired_operand hg h).output)

theorem paired_predicate (hg : P.Opens g) {p p' : Predicate} :
    p.Alike L p' → P.whole (predicate d p) (predicate (d.withGates g) p')
  | .comparison op hl hr => Comparison.paired_render op (paired_operand hg hl) (paired_operand hg hr)
  | .junction nature h => paired_junction nature (paired_predicates hg h)
  | .negated h => P.whole_of_led
      (P.led_append (P.word (by decide)) (P.parenthesized (paired_predicate hg h)))
  | .nullCheck negated h => paired_nullCheck negated (paired_operand hg h)
  | .inList negated h hs => paired_inList negated (paired_operand hg h) (paired_operands hg hs)
  | .inSubquery negated h hq =>
      paired_inSubquery negated (paired_operand hg h) (paired_query hg lockNamed_none hq)
  | .exists negated h =>
      have hnot := P.when negated (P.word (w := "not ") (by decide))
      have hquery := P.parenthesized (P.whole_of_led (paired_query hg lockNamed_none h).output)
      P.whole_of_led (P.led_append (P.led_append hnot (P.word (by decide))) hquery)
  | .between negated h hl hr =>
      paired_between negated (paired_operand hg h) (paired_operand hg hl) (paired_operand hg hr)
  | .like negated h hp =>
      paired_like negated (paired_operand hg h).output (paired_operand hg hp).output .none
  | .likeEscape negated h hp hc =>
      paired_like negated (paired_operand hg h).output (paired_operand hg hp).output (.some hc)
  | .boolean h => (paired_operand hg h).output

theorem paired_predicates (hg : P.Opens g) {ps ps' : List Predicate} :
    Predicate.AllAlike L ps ps' → MembersPaired P (predicates d ps) (predicates (d.withGates g) ps')
  | .nil => .nil
  | .cons h hs => .cons ⟨h.isCompound_eq, paired_predicate hg h⟩ (paired_predicates hg hs)

theorem paired_optionalPredicate (hg : P.Opens g) {p p' : Option Predicate} :
    Predicate.OptionAlike L p p' →
      Option.Rel P.whole (optionalPredicate d p) (optionalPredicate (d.withGates g) p')
  | .none => .none
  | .some h => .some (paired_predicate hg h)

theorem paired_selections (hg : P.Opens g) {ss ss' : List Selection} :
    Selection.AllAlike L ss ss' → ItemsPaired P (selections d ss) (selections (d.withGates g) ss')
  | .nil => .nil
  | .cons h hl hs => .cons ⟨paired_operand hg h, P.label hl⟩ (paired_selections hg hs)

theorem paired_tableReference (hg : P.Opens g) {label : Option String} (hl : L.optionalName label)
    {r r' : TableReference} :
    r.Alike L r' → P.led (tableReference d label r) (tableReference (d.withGates g) label r')
  | .named h => P.led_append (paired_namedTable h) (P.label hl)
  | .derived h hc =>
      have hquery := P.parenthesized (P.whole_of_led (paired_query hg lockNamed_none h).output)
      have hcolumns := P.led_append (P.word (w := " ") (by decide))
        (P.parenthesized (P.whole_of_led (P.nameList hc)))
      P.led_append (P.led_append (P.led_append (P.require_self _ _) hquery) (P.label hl))
        (P.when _ hcolumns)

theorem paired_tableGroups (hg : P.Opens g) {gs gs' : List TableGroup} :
    TableGroup.AllAlike L gs gs' → P.AllLed (tableGroups d gs) (tableGroups (d.withGates g) gs')
  | .nil => .nil
  | .cons h hl hj hs =>
      .cons (P.led_append (paired_tableReference hg hl h)
        (P.concat (List.rel_flatten (paired_joinLevels hg hj)))) (paired_tableGroups hg hs)

theorem paired_joinLevels (hg : P.Opens g) {js js' : List TableJoin} :
    TableJoin.AllAlike L js js' →
      List.Forall₂ P.AllLed (joinLevels d js) (joinLevels (d.withGates g) js')
  | .nil => .nil
  | .cons type lateral h hl hk hp hs =>
      have hown := P.led_append (P.led_append (paired_joinHead hg type lateral hp.sameEmptiness)
        (paired_tableReference hg hl h))
        (paired_joinCondition (g := g) type lateral hp.sameEmptiness (paired_optionalPredicate hg hp))
      paired_mergeLevels (.cons (.cons hown .nil) (paired_joinLevels hg hk)) (paired_joinLevels hg hs)

theorem paired_query (hg : P.Opens g) {lock : Option LockScope} (hlock : LockNamed L lock)
    {q q' : Query} :
    q.Alike L q' → (query d lock q).Paired P (query (d.withGates g) lock q')
  | .spec h => paired_querySpec hg hlock h
  | .group h => .setOperation (paired_queryGroup hg hlock h)

theorem paired_querySpec (hg : P.Opens g) {lock : Option LockScope} (hlock : LockNamed L lock)
    {s s' : QuerySpec} :
    s.Alike L s' → (querySpec d lock s).Paired P (querySpec (d.withGates g) lock s')
  | .mk distinct kind hi hr hw hgroup hh hk ho hf => by
      have hitems := paired_selections hg hi
      have hsource := paired_fromClause (g := g) (paired_tableGroups hg hr)
      have hrestricted := paired_optionalPredicate hg hw
      have hoffset := paired_limit hg ho
      have hfetch := paired_limit hg hf
      have hlist := paired_selectListOf (g := g) kind hoffset hfetch
        (paired_selectList distinct hitems.outputs)
      have hselect := P.led_append (P.word_append (w := "select ") (by decide) hlist) hsource
      have hwhere := paired_condition (w := " where ") (by decide) hw.sameEmptiness hrestricted
      have hgrouping := P.word_append (w := " group by ") (by decide)
        (P.list (paired_partition hg hgroup))
      have hhaving := paired_condition (w := " having ") (by decide) hh.sameEmptiness
        (paired_optionalPredicate hg hh)
      have horder := paired_orderBy (paired_sortKeys hg hk)
      have hclause := RowLimit.paired_clause hg kind hoffset hfetch
      rw [querySpec.eq_def, querySpec.eq_def]
      dsimp only
      rw [hgroup.isEmpty_eq, hh.isSome_eq, Limit.isNone_eq hoffset, Limit.isNone_eq hfetch]
      refine .spec _ (P.led_append (P.led_append (P.led_append (P.led_append (P.led_append
        (P.led_append hselect hwhere) ?_) hhaving) horder) hclause) (paired_lock _ hlock))
        hsource (paired_nonempty hw hrestricted) hitems.operands
      exact P.led_ite P.empty hgrouping

theorem paired_queryGroup (hg : P.Opens g) {lock : Option LockScope} (hlock : LockNamed L lock)
    {s s' : QueryGroup} :
    s.Alike L s' → P.led (queryGroup d lock s) (queryGroup (d.withGates g) lock s')
  | .mk operator kind hq hk ho hf =>
      paired_setOperation hg operator kind (paired_groupMembers hg (hlock.inner) hq)
        (paired_sortKeys hg hk) (paired_limit hg ho) (paired_limit hg hf)

theorem paired_groupMembers (hg : P.Opens g) {lock : Option LockScope} (hlock : LockNamed L lock)
    {qs qs' : List Query} :
    Query.AllAlike L qs qs' →
      P.AllLed (groupMembers d lock qs) (groupMembers (d.withGates g) lock qs')
  | .nil => .nil
  | .cons h hs =>
      .cons (paired_member h (paired_query hg hlock h).output) (paired_groupMembers hg hlock hs)

end

end Render

end DialectSql
