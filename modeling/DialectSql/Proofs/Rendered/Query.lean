import DialectSql.Proofs.QuerySpec
import DialectSql.Proofs.Rendered.Predicate

namespace DialectSql

open Output Node

namespace Render

variable (d : Dialect)

theorem whenClauses_eq_map (bs : List WhenClause) :
    whenClauses d bs = bs.map fun b =>
      .word " when " ++ predicate d b.condition ++ .word " then " ++ expression d b.result := by
  induction bs with
  | nil => rfl
  | cons b bs ih =>
      cases b
      rw [whenClauses, ih]
      rfl

theorem sortKeys_eq_map (ks : List SortKey) :
    sortKeys d ks = ks.map fun k => sortKey d k.direction k.nulls (expression d k.expr) := by
  induction ks with
  | nil => rfl
  | cons k ks ih =>
      cases k
      rw [sortKeys, ih]
      rfl

theorem groupMembers_eq_map (lock : Option LockScope) (qs : List Query) :
    groupMembers d lock qs = qs.map fun q => member d q (query d lock q).output := by
  induction qs with
  | nil => rfl
  | cons q qs ih => rw [groupMembers, ih, List.map_cons]

theorem selections_eq_map (ss : List Selection) :
    selections d ss = ss.map fun s => (operand d s.expr, .label s.label) := by
  induction ss with
  | nil => rfl
  | cons s ss ih =>
      cases s
      rw [selections, ih]
      rfl

end Render

theorem Output.Composed.partitionItem (rule : PartitionRule) (e : Expr) (o : Output) :
    Composed (if e.isLiteral then [] else [o]) (Render.partitionItem rule e o) := by
  have hbars := ((Composed.unit (p := .quoted "0") rfl).append
    (Composed.word (w := " || ") rfl)).append (Composed.unit (p := .quoted "0") rfl)
  cases rule with
  | standard => cases e <;> first | exact .word rfl | exact .part o
  | expression => cases e <;> first | exact hbars | exact .part o | exact .fail _ _

namespace Output.AllComposed

variable (d : Dialect)

theorem whenClauses (bs : List WhenClause) :
    AllComposed ((bs.flatMap fun b => [predicate b.condition, expr b.result]).map (Node.output d))
      (Render.whenClauses d bs) := by
  rw [Render.whenClauses_eq_map, List.map_flatMap]
  refine map fun b _ => ?_
  have hcondition := ((Composed.word (w := " when ") rfl).behind
    (Composed.part (Render.predicate d b.condition))).before (Composed.word (w := " then ") rfl)
  exact hcondition.append (Composed.part (Render.expression d b.result))

theorem partition (es : List Expr) :
    AllComposed ((items es).map (Node.output d)) (Render.partition d es) := by
  induction es with
  | nil => exact nil
  | cons e es ih =>
      have he := Composed.partitionItem d.strategies.partition e (Render.expression d e)
      have hparts : (items (e :: es)).map (Node.output d) =
          (if e.isLiteral then [] else [Render.expression d e]) ++
            (items es).map (Node.output d) := by
        cases hliteral : e.isLiteral <;> simp [items, exprs, hliteral, Node.output]
      rw [hparts]
      exact (singleton he).append ih

theorem sortKeys (ks : List SortKey) :
    AllComposed ((Node.sortKeys ks).map (Node.output d)) (Render.sortKeys d ks) := by
  rw [Render.sortKeys_eq_map, Node.sortKeys, exprs, List.map_map, List.map_map]
  exact each fun k _ => Composed.sortKey d k.direction k.nulls (.part _)

end Output.AllComposed

/-- What an expression writes itself: its operator between blanks, or itself where it is a negation,
since its sign is not separate from its operand. -/
def Expr.written (d : Dialect) : Expr → List Output
  | .binary _ op _ => [.word " " ++ .word op.sql ++ .word " "]
  | .negate e => [Render.expression d (.negate e)]
  | _ => []

theorem Expr.composed (d : Dialect) (e : Expr) :
    Composed (e.written d ++ e.parts.map (Node.output d)) (Render.expression d e) := by
  cases e with
  | column qualifier name => exact .qualified qualifier (.name name)
  | literal v => exact .literal d v
  | parameter slot => exact .unit rfl
  | tuple es =>
      rw [parts, Composed.outputs_exprs]
      exact (Composed.list _).parenthesized
  | summarization kind es =>
      rw [parts, Composed.outputs_exprs]
      exact .summarization d kind _
  | binary left op right => exact .binary left op right _ _
  | negate e => exact .negation e _
  | function f args distinct =>
      rw [parts, Composed.outputs_exprs]
      exact .call f _ distinct
  | «case» branches otherwise =>
      have hbranches := AllComposed.whenClauses d branches
      rw [parts, List.map_append]
      cases otherwise with
      | none => exact (hbranches.append .nil).composed (.caseOf _ none)
      | some e =>
          exact (hbranches.append (.singleton (.part (Render.expression d e)))).composed
            (.caseOf _ (some (Render.expression d e)))
  | cast e type => exact .cast type (.part _)
  | subquery q => exact (Composed.part (Render.query d none q).output).parenthesized
  | quantified quantifier q =>
      have hword : Composed [] (.word quantifier.sql) := by cases quantifier <;> exact .word rfl
      exact (hword.append (.word rfl)).behind
        (Composed.part (Render.query d none q).output).parenthesized
  | windowed f partitionBy keys frame =>
      have hparts := (AllComposed.singleton (.part (Render.expression d f))).append
        ((AllComposed.partition d partitionBy).append (AllComposed.sortKeys d keys))
      rw [parts, List.map_cons, List.map_append]
      exact hparts.composed (.windowed (Render.expression d f) (Render.partition d partitionBy)
        (Render.sortKeys d keys) frame)
  | star qualifier => exact .qualified qualifier (.word rfl)

namespace Output.Composed

variable (d : Dialect)

theorem locking (scope : LockScope) (aggregating : Bool) :
    Composed [] (Locking.render d scope aggregating) := by
  have htimeout (locking : LockingCapabilities) (t : LockTimeout) :
      Composed [] (Locking.timeoutOutput locking t) := by
    cases t with
    | wait => exact empty
    | seconds n => exact when _ ((word rfl).append (unit (isTidy_nat _)))
    | noWait | skipLocked => exact when _ (word rfl)
  rw [Locking.render.eq_def]
  dsimp only
  split
  · exact empty
  split
  · exact unit rfl
  split
  · exact fail _ _
  · exact unit rfl
  · rw [Locking.forUpdate]
    refine behind (behind ?_ ?_) (htimeout _ _)
    · split <;> exact word rfl
    · exact when _ ((word rfl).append (nameList _))

theorem outputs_range (offset fetch : Option Expr) :
    (range d offset fetch).map (Node.output d) =
      rangeOutputs d.strategies.upperBound (Render.limit d offset) (Render.limit d fetch) := by
  cases fetch with
  | none => rfl
  | some f =>
      cases offset with
      | none => simp [range, rangeOutputs, Render.limit, Limit.output_ofExpr, Node.output, Render.expression]
      | some o =>
          simp only [range, rangeOutputs, Render.limit, Limit.output_ofExpr]
          split <;> rfl

theorem outputs_limit (e : Option Expr) :
    (exprs e.toList).map (Node.output d) = (Render.limit d e).toList.map (·.output) := by
  cases e with
  | none => rfl
  | some e => simp [exprs, Render.limit, Limit.output_ofExpr, Node.output, Render.expression]

theorem outputs_limits (offset fetch : Option Expr) :
    (limits d offset fetch).map (Node.output d) =
      if d.strategies.rowLimit = .standard ∧ d.capabilities.rowLimit ≠ .rowsTo then
        (Render.limit d offset).toList.map (·.output) ++ (Render.limit d fetch).toList.map (·.output)
      else [] := by
  rw [limits]
  split
  · rw [exprs, List.map_append, List.map_append, ← exprs, ← exprs, outputs_limit, outputs_limit]
  · rfl

end Output.Composed

theorem QuerySpec.composed (d : Dialect) (lock : Option LockScope) (s : QuerySpec) :
    Composed ((s.parts d).map (Node.output d)) (Render.querySpec d lock s).output := by
  have hlock : Composed [] (Render.lockOf d lock s) := by
    cases lock with
    | none => exact .empty
    | some scope => exact .locking d scope _
  have hgroup : Composed ((items s.groupBy).map (Node.output d)) (Render.grouping d s) := by
    have hempty : (Render.partition d s.groupBy).isEmpty = s.groupBy.isEmpty := by
      cases s.groupBy <;> rfl
    have hitems := (AllComposed.partition d s.groupBy).composed
      (.keyed (w := " group by ") rfl _)
    rwa [hempty] at hitems
  have hselections : AllComposed ((exprs s.columns).map (Node.output d))
      ((Render.selections d s.selections).map fun i => i.1.output ++ i.2) := by
    rw [Render.selections_eq_map, List.map_map, columns, exprs, List.map_map, List.map_map]
    exact .each fun x _ => (Composed.part _).before (.label _)
  have hlist := hselections.composed (Composed.selectList s.distinct _)
  have hselected := ((Composed.word (w := "select ") rfl).behind (Composed.selectListOf d
    (Render.limit d s.offset) (Render.limit d s.fetch) s.fetchKind hlist)).append
    (Composed.tables d s)
  have horder := (AllComposed.sortKeys d s.orderBy).composed (.orderBy _)
  have hlimit := Composed.rowLimit d (Render.limit d s.offset) (Render.limit d s.fetch) s.fetchKind
  rw [← Composed.outputs_limits] at hlimit
  rw [← Composed.outputs_range] at hselected
  have hall := (((hselected.append (.condition d (w := " where ") rfl s.restriction)).append
    hgroup).append (.condition d (w := " having ") rfl s.having)).append
    (horder.append (hlimit.before hlock))
  rw [Render.output_querySpec]
  refine hall.congr fun m => ?_
  simp only [parts, List.map_append, apply_ite (List.map (Node.output d)), List.map_nil,
    List.mem_append]
  tauto

theorem QueryGroup.composed (d : Dialect) (lock : Option LockScope) (g : QueryGroup) :
    Composed ((g.parts d lock).map (Node.output d)) (Render.queryGroup d lock g) := by
  obtain ⟨operator, members, keys, offset, fetch, kind⟩ := g
  let inner := lock.map fun scope => { scope with underSetOperation := true }
  have hmembers : AllComposed ((members.map (.query inner)).map (Node.output d))
      (Render.groupMembers d inner members) := by
    rw [Render.groupMembers_eq_map, List.map_map]
    exact .each fun q _ => .member d q (.part _)
  have hsome (e : Option Expr) : (Render.limit d e).isSome = e.isSome := by cases e <;> rfl
  have hall := Composed.setOperation d operator (Render.groupMembers d inner members)
    (Render.sortKeys d keys) (Render.limit d offset) (Render.limit d fetch) kind
  rw [← Composed.outputs_limits, ← Composed.outputs_range, hsome, hsome] at hall
  have hparts := ((hmembers.append (AllComposed.sortKeys d keys)).append (.refl _)).composed hall
  rw [parts, List.map_append, List.map_append, apply_ite (List.map (Node.output d))]
  exact hparts

theorem Query.composed (d : Dialect) (lock : Option LockScope) (q : Query) :
    Composed ((q.parts d lock).map (Node.output d)) (Render.query d lock q).output := by
  cases q with
  | spec s => exact s.composed d lock
  | group g => exact g.composed d lock

/-- What a node writes itself: an operator, or a sign with what it negates. -/
def Node.written (d : Dialect) : Node → List Output
  | expr e => e.written d
  | predicate p => p.written d
  | query _ _ => []

/-- A node is rendered from its parts, what it writes itself, and fixed words. -/
theorem Node.composed (d : Dialect) (n : Node) :
    Composed (n.written d ++ (n.parts d).map (output d)) (n.output d) := by
  cases n with
  | expr e => exact e.composed d
  | predicate p => exact p.composed d
  | query lock q => exact q.composed d lock

end DialectSql
