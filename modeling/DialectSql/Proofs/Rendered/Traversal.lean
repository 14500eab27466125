import DialectSql.Proofs.Rendered.Query
import DialectSql.Proofs.Rendered.Size
import DialectSql.Render.Translation

namespace DialectSql

open Output

namespace Node.Renders

variable {d : Dialect} {k m n : Node}

theorem trans (h : Renders d k m) (g : Renders d m n) : Renders d k n := by
  induction g with
  | here => exact h
  | through hpart _ ih => exact .through hpart ih

/-- What is rendered in a node stands in its text. -/
theorem inside (h : Renders d k n) : (k.output d).Inside (n.output d) := by
  induction h with
  | here => exact .refl _
  | through hpart _ ih =>
      have hin := (composed d _).inside _ (List.mem_append_right _ (List.mem_map_of_mem hpart))
      exact ih.trans hin

/-- What a node writes itself stands in the text of the node. -/
theorem written (h : Renders d k n) {o : Output} (ho : o ∈ k.written d) : o.Inside (n.output d) :=
  ((composed d k).inside o (List.mem_append_left _ ho)).trans h.inside

end Node.Renders

/-- A property that is kept when outputs are put together holds of a node, if it holds of what is
written in it, once it holds of the parts. -/
theorem Node.holds {d : Dialect} {P : Output → Prop} (hP : Additive P) (n : Node)
    (h : ∀ k, Renders d k n → (∀ m ∈ k.parts d, P (m.output d)) → ∀ o ∈ k.written d, P o) :
    P (n.output d) := by
  have hparts : ∀ k ∈ n.parts d, P (k.output d) := fun k hk =>
    holds hP k fun j hj => h j (.through hk hj)
  refine (composed d n).holds hP fun m hm => ?_
  rcases List.mem_append.1 hm with hm | hm
  · exact h n .here hparts m hm
  · obtain ⟨k, hk, rfl⟩ := List.mem_map.1 hm
    exact hparts k hk
termination_by n.size
decreasing_by exact size_parts hk

namespace Output.Composed

variable (d : Dialect)

theorem materialization (m : CteMaterialization) : Composed [] (Render.materialization d m) := by
  rw [Render.materialization.eq_def]
  split
  · cases m with
    | undefined => exact empty
    | materialized | notMaterialized => exact word rfl
  · exact empty

theorem columnList (columns : List String) : Composed [] (Render.columnList columns) := by
  rw [Render.columnList]
  split
  · exact empty
  · exact (word rfl).append (nameList columns).parenthesized

theorem searchClause (rule : SearchRule) (search : Option SearchClause) :
    Composed [] (Render.searchClause d rule search) := by
  have hitem (item : SearchItem) : Composed [] (Render.searchItem item) :=
    (name _).append (when _ (word rfl))
  rw [Render.searchClause.eq_def]
  split
  · rename_i search
    rw [Render.searchStandard]
    split
    · exact empty
    · have hitems := (AllComposed.map (p := fun _ => []) (l := search.items)
        fun i _ => hitem i).composed (list _)
      rw [List.flatMap_eq_nil_iff.2 fun _ _ => rfl] at hitems
      have hkind : Composed [] (.word search.kind.sql) := by cases search.kind <;> exact word rfl
      exact ((((((word rfl).append hkind).append (word rfl)).append hitems).append
        (word rfl)).append (name _))
  · exact empty

theorem cycleClause (rule : CycleRule) (cte : String) (cycle : Option CycleClause) :
    Composed [] (Render.cycleClause d rule cte cycle) := by
  rw [Render.cycleClause.eq_def]
  split
  · exact empty
  · rename_i cycle
    rw [Render.cycleStandard]
    split
    · exact unit rfl
    · have hpath : Composed [] (.clause " using " (cycle.pathColumn.map .name)) := by
        cases cycle.pathColumn with
        | none => exact empty
        | some c => exact (word rfl).append (name c)
      have hcolumns := (word (w := " cycle ") rfl).append (nameList cycle.columns)
      have hmark := (hcolumns.append (word (w := " set ") rfl)).append (name cycle.markColumn)
      have hto := (hmark.append (word (w := " to ") rfl)).append (value cycle.cycleValue)
      have hdefault := (hto.append (word (w := " default ") rfl)).append (value cycle.nonCycleValue)
      exact hdefault.append hpath
  · exact unit rfl

theorem cte (c : Cte) : Composed [(Render.query d none c.query).output] (Render.cte d c) := by
  have hhead := (((name c.name).append (columnList c.columns)).append
    (word (w := " as ") rfl)).append (materialization d c.materialization)
  exact ((hhead.behind (part _).parenthesized).before (searchClause d _ _)).before
    (cycleClause d _ _ _)

theorem withClause (ctes : List Cte) :
    Composed (ctes.map fun c => (Render.query d none c.query).output) (Render.withClause d ctes) := by
  rw [Render.withClause]
  cases ctes with
  | nil => exact empty
  | cons c cs =>
      have hrecursive : Composed [] (if (c :: cs).any (·.recursive) then
          .require d.capabilities.recursiveCte (.unsupported .recursiveCte) ++
            .when d.capabilities.recursiveKeyword (.word "recursive ")
          else .empty) := by
        split
        · exact (require _ _).append (when _ (word rfl))
        · exact empty
      have hlist := (AllComposed.each (l := c :: cs) fun c _ => cte d c).composed (list _)
      exact ((((require _ _).append (word rfl)).append hrecursive).behind hlist).before (word rfl)

theorem select (lock : Option LockScope) (s : SelectStatement) :
    Composed ((s.parts lock).map (Node.output d)) (Render.select d lock s) := by
  rw [SelectStatement.parts, List.map_append, List.map_map]
  exact (withClause d s.ctes).append (part (Render.query d lock s.query).output)

theorem insertRows (columns : List String) (rows : List (List Expr)) :
    Composed ((rows.flatMap Node.exprs).map (Node.output d)) (Render.insertRows d columns rows) := by
  have hrow (row : List Expr) :
      Composed ((Node.exprs row).map (Node.output d)) (Render.insertRow d columns row) := by
    rw [outputs_exprs]
    exact (require _ _).behind (list _).parenthesized
  rw [List.map_flatMap]
  exact (AllComposed.map fun row _ => hrow row).composed (list _)

theorem insertSource (columns : List String) (s : InsertSource) :
    Composed (s.parts.map (Node.output d)) (Render.insertSource d columns s) := by
  cases s with
  | values rows =>
      exact (((require _ _).append (columnList columns)).append (word (w := " values ") rfl)).behind
        (insertRows d columns rows)
  | query s => exact ((columnList columns).append (word rfl)).behind (select d none s)
  | defaultValues => exact (require _ _).append (word rfl)

end Output.Composed

theorem Statement.composed (d : Dialect) (lock : LockOptions) (s : Statement) :
    Composed ((s.parts lock).map (Node.output d)) (Render.statement d lock s) := by
  cases s with
  | select s => exact .select d _ s
  | insert s =>
      exact ((Composed.word rfl).append (.namedTable s.target)).behind
        (.insertSource d s.columns s.source)
  | update s =>
      have hassignment (a : Assignment) :
          Composed [Render.expression d a.value] (Render.assignment d a) :=
        ((Composed.name _).append (.word rfl)).behind (.part _)
      have hlist := (AllComposed.each (l := s.assignments) fun a _ => hassignment a).composed
        (Composed.list _)
      have hhead := (((Composed.require (!s.assignments.isEmpty)
        (.invalid .updateWithoutAssignments)).append (.word (w := "update ") rfl)).append
        (.namedTable s.target)).append (.word (w := " set ") rfl)
      rw [parts, List.map_append, Node.exprs, List.map_map, List.map_map]
      exact (hhead.behind hlist).append (.condition d rfl s.restriction)
  | delete s =>
      exact ((Composed.word rfl).append (.namedTable s.target)).behind
        (.condition d rfl s.restriction)

namespace Statement

variable {d : Dialect} {lock : LockOptions} {s : Statement} {k : Node}

theorem Renders.inside (h : s.Renders d lock k) :
    (k.output d).Inside (Render.statement d lock s) := by
  obtain ⟨n, hn, h⟩ := h
  exact h.inside.trans ((s.composed d lock).inside _ (List.mem_map_of_mem hn))

theorem Renders.written (h : s.Renders d lock k) {o : Output} (ho : o ∈ k.written d) :
    o.Inside (Render.statement d lock s) :=
  ((Node.composed d k).inside o (List.mem_append_left _ ho)).trans h.inside

theorem holds {P : Output → Prop} (hP : Additive P)
    (h : ∀ k, s.Renders d lock k → (∀ m ∈ k.parts d, P (m.output d)) → ∀ o ∈ k.written d, P o) :
    P (Render.statement d lock s) := by
  refine (s.composed d lock).holds hP (List.forall_mem_map.2 fun n hn => ?_)
  exact Node.holds hP n fun k hk => h k ⟨n, hn, hk⟩

end Statement

theorem translateWithLock_isOk {d : Dialect} {s : Statement} {lock : LockOptions} :
    (∃ t, translateWithLock d s lock = .ok t) ↔ (Render.statement d lock s).failure = none := by
  rw [translateWithLock, Translation.ofOutput]
  cases (Render.statement d lock s).failure <;> simp

end DialectSql
