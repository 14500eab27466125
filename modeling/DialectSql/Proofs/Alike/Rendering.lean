import DialectSql.Proofs.Alike.Query

namespace DialectSql

open Output

variable {L : Likeness} {d : Dialect} {P : Pairing L d} {g : Gates}

namespace Render

theorem paired_searchClause {search : Option SearchClause} (h : ∀ s ∈ search, s.Named L) :
    P.led (searchClause d d.strategies.search search)
      (searchClause d d.strategies.search search) := by
  cases d.strategies.search with
  | skip => exact P.empty
  | standard =>
      cases search with
      | none => exact P.empty
      | some s =>
          obtain ⟨hitems, hsequence⟩ := h s rfl
          have hkind : IsSeparator s.kind.sql := by cases s.kind <;> decide
          have hlist := P.led_list (P.allLed_map fun i hi =>
            P.led_append (P.name (hitems i hi)) (P.when (i.direction == .desc)
              (P.word (w := " desc") (by decide))))
          have hby := P.led_append (P.led_append (P.word (w := " search ") (by decide))
            (P.word hkind)) (P.word (w := " by ") (by decide))
          have hset := P.led_append (P.led_append hby hlist) (P.word (w := " set ") (by decide))
          exact P.led_ite P.empty (P.led_append hset (P.name hsequence))

theorem paired_cycleClause (name : String) {cycle cycle' : Option CycleClause}
    (h : Option.Rel (CycleClause.Alike L) cycle cycle') :
    P.led (cycleClause d d.strategies.cycle name cycle)
      (cycleClause d d.strategies.cycle name cycle') := by
  have hgap := P.unit (p := .gap (.cycleClause name)) trivial rfl
  cases h with
  | none => cases d.strategies.cycle <;> exact P.empty
  | @some c c' h =>
      cases d.strategies.cycle with
      | gap => exact hgap
      | standard =>
          obtain ⟨hcolumns, hmark, hpath⟩ := h.named
          have hset := P.led_append (P.led_append (P.word (w := " cycle ") (by decide))
            (P.nameList hcolumns)) (P.word (w := " set ") (by decide))
          have hto := P.led_between (w := " to ") (by decide) (P.led_append hset (P.name hmark))
            (P.pieces h.cycleValue)
          have hdefault := P.led_between (w := " default ") (by decide) hto
            (P.pieces h.nonCycleValue)
          have husing : P.led (.clause " using " (c.pathColumn.map .name))
              (.clause " using " (c.pathColumn.map .name)) := by
            cases hname : c.pathColumn with
            | none => exact P.clause_none _
            | some n => exact P.clause_some (by decide) (P.whole_of_led (P.name (hpath n hname)))
          rw [cycleClause, cycleClause, cycleStandard, cycleStandard, ← h.columns, ← h.markColumn,
            ← h.pathColumn]
          exact P.led_ite hgap (P.led_append hdefault husing)

theorem paired_materialization (m : CteMaterialization) :
    P.led (materialization d m) (materialization d m) := by
  refine P.led_ite ?_ P.empty
  cases m with
  | undefined => exact P.empty
  | materialized | notMaterialized => exact P.word (by decide)

theorem paired_columnList {columns : List String} (h : L.names columns) :
    P.led (columnList columns) (columnList columns) :=
  P.led_ite P.empty (P.led_append (P.word (by decide))
    (P.parenthesized (P.whole_of_led (P.nameList h))))

theorem paired_cte (hg : P.Opens g) {c c' : Cte} (h : c.Alike L c') :
    P.led (cte d c) (cte (d.withGates g) c') := by
  obtain ⟨hname, hcolumns, hsearch⟩ := h.named
  have hhead := P.led_append (P.led_append (P.name hname) (paired_columnList hcolumns))
    (P.word (w := " as ") (by decide))
  have hquery := P.parenthesized (P.whole_of_led (paired_query hg lockNamed_none h.query).output)
  have hbody := P.led_append (P.led_append hhead (paired_materialization c.materialization)) hquery
  have hclauses := P.led_append (P.led_append hbody (paired_searchClause hsearch))
    (paired_cycleClause c.name h.cycle)
  rw [cte, cte, ← h.name, ← h.columns, ← h.materialization, ← h.search]
  exact hclauses

theorem paired_withClause (hg : P.Opens g) {cs cs' : List Cte}
    (h : List.Forall₂ (Cte.Alike L) cs cs') :
    P.led (withClause d cs) (withClause (d.withGates g) cs') := by
  have hrecursive : cs.any (·.recursive) = cs'.any (·.recursive) := by
    induction h with
    | nil => rfl
    | cons hc _ ih => rw [List.any_cons, List.any_cons, hc.recursive, ih]
  have hempty : cs.isEmpty = cs'.isEmpty := by cases h <;> rfl
  have hlist : P.AllLed (cs.map (cte d)) (cs'.map (cte (d.withGates g))) := by
    rw [Pairing.AllLed, List.forall₂_map_left_iff, List.forall₂_map_right_iff]
    exact h.imp fun _ _ => paired_cte hg
  have hkeyword := P.when d.capabilities.recursiveKeyword (P.word (w := "recursive ") (by decide))
  have hwith := P.led_append (P.require .cte hg.cte) (P.word (w := "with ") (by decide))
  have hmark := P.led_ite (p := cs'.any (·.recursive))
    (P.led_append (P.require .recursiveCte hg.recursiveCte) hkeyword) P.empty
  rw [withClause, withClause, hrecursive, hempty]
  exact P.led_ite P.empty (P.led_append (P.led_append (P.led_append hwith hmark) (P.led_list hlist))
    (P.word (by decide)))

theorem paired_select (hg : P.Opens g) {lock : Option LockScope} (hlock : LockNamed L lock)
    {s s' : SelectStatement} (h : s.Alike L s') :
    P.led (select d lock s) (select (d.withGates g) lock s') :=
  P.led_append (paired_withClause hg h.ctes) (paired_query hg hlock h.query).output

theorem paired_insertRow (hg : P.Opens g) (columns : List String) {row row' : List Expr}
    (h : Expr.AllAlike L row row') :
    P.led (insertRow d columns row) (insertRow (d.withGates g) columns row') := by
  rw [insertRow, insertRow, h.length_eq]
  exact P.led_append (P.require_self _ _)
    (P.parenthesized (P.list (paired_operands hg h).outputs))

theorem paired_insertSource (hg : P.Opens g) {columns : List String} (hc : L.names columns)
    {source source' : InsertSource} (h : source.Alike L source') :
    P.led (insertSource d columns source) (insertSource (d.withGates g) columns source') := by
  have hcolumns := paired_columnList (P := P) hc
  cases h with
  | defaultValues =>
      exact P.led_append (P.require .insertDefaultValues hg.insertDefaultValues)
        (P.word (by decide))
  | @values rows rows' h =>
      have hrows : P.AllLed (rows.map (insertRow d columns))
          (rows'.map (insertRow (d.withGates g) columns)) := by
        rw [Pairing.AllLed, List.forall₂_map_left_iff, List.forall₂_map_right_iff]
        exact h.imp fun _ _ => paired_insertRow hg columns
      have hempty : rows.isEmpty = rows'.isEmpty := by cases h <;> rfl
      rw [insertSource, insertSource, hempty]
      exact P.led_append (P.led_append (P.led_append (P.require_self _ _) hcolumns)
        (P.word (by decide))) (P.led_list hrows)
  | query h =>
      exact P.led_append (P.led_append hcolumns (P.word (by decide)))
        (paired_select hg lockNamed_none h)

theorem paired_assignment (hg : P.Opens g) {a a' : Assignment} (h : a.Alike L a') :
    P.led (assignment d a) (assignment (d.withGates g) a') := by
  rw [assignment, assignment, ← h.column]
  exact P.led_between (by decide) (P.name h.named) (paired_operand hg h.value).output

theorem paired_whereClause (hg : P.Opens g) {p p' : Option Predicate}
    (h : Predicate.OptionAlike L p p') :
    P.led (whereClause d p) (whereClause (d.withGates g) p') :=
  paired_condition (by decide) h.sameEmptiness (paired_optionalPredicate hg h)

/-- Statements that are alike have renderings that belong together, also where the gates of the
dialect are set otherwise. -/
theorem paired_statement (hg : P.Opens g) {lock : LockOptions} (hlock : L.names lock.aliases)
    {s s' : Statement} (h : s.Alike L s') :
    P.led (statement d lock s) (statement (d.withGates g) lock s') := by
  cases h with
  | select h =>
      exact paired_select hg (fun _ hscope => Option.some.inj hscope ▸ hlock) h
  | insert ht hc h =>
      exact P.led_append (P.led_append (P.word (by decide)) (paired_namedTable ht))
        (paired_insertSource hg hc h)
  | @update target assignments assignments' _ _ ht ha h =>
      have hempty : assignments.isEmpty = assignments'.isEmpty := by cases ha <;> rfl
      have hlist : P.AllLed (assignments.map (assignment d))
          (assignments'.map (assignment (d.withGates g))) := by
        rw [Pairing.AllLed, List.forall₂_map_left_iff, List.forall₂_map_right_iff]
        exact ha.imp fun _ _ => paired_assignment hg
      rw [statement, statement, update, update, hempty]
      exact P.led_append (P.led_append (P.led_append (P.led_append (P.led_append
        (P.require_self _ _) (P.word (by decide))) (paired_namedTable ht)) (P.word (by decide)))
        (P.led_list hlist)) (paired_whereClause hg h)
  | delete ht h =>
      exact P.led_append (P.led_append (P.word (by decide)) (paired_namedTable ht))
        (paired_whereClause hg h)

end Render

end DialectSql
