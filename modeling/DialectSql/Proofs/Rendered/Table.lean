import DialectSql.Proofs.Rendered.Clause

namespace DialectSql

open Output

namespace Output.Composed

variable (d : Dialect)

theorem condition {w : String} (hw : Lexeme.isFixed w = true) (p : Option Predicate) :
    Composed ((Node.given p).map (Node.output d))
      (Render.condition w p (Render.optionalPredicate d p)) := by
  cases p with
  | none => exact empty
  | some p =>
      rw [Node.given, Render.condition]
      cases p.isEmpty with
      | true => exact empty
      | false => exact clause hw (some (Render.predicate d p))

theorem joinCondition (type : JoinType) (p : Option Predicate) (lateral : Bool) :
    Composed ((if type = .cross then [] else Node.given p).map (Node.output d))
      (Render.joinCondition d type p lateral (Render.optionalPredicate d p)) := by
  have htrue : Composed [] (if d.strategies.join = .standard ∨ lateral = true then
      .word " on " ++ .word JunctionNature.conjunction.emptySql else .empty) := by
    split
    · exact (word rfl).append (word rfl)
    · exact empty
  rw [Render.joinCondition.eq_def]
  dsimp only
  by_cases hcross : type = .cross
  · simpa [hcross] using empty
  · simp only [if_neg hcross]
    cases p with
    | none => simpa [Node.given] using htrue
    | some p =>
        cases hp : p.isEmpty with
        | true => simpa [Node.given, hp] using htrue
        | false =>
            simpa [Node.given, hp, Node.output, Render.optionalPredicate] using
              clause (w := " on ") rfl (some (Render.predicate d p))

theorem tableReference (label : Option String) (t : TableReference) :
    Composed (t.parts.map (Node.output d)) (Render.tableReference d label t) := by
  cases t with
  | named t => exact (namedTable t).append (Composed.label label)
  | derived q columns =>
      have hcolumns : Composed [] (.when (!columns.isEmpty)
          (.word " " ++ (Output.nameList columns).parenthesized)) :=
        when _ ((word rfl).append (nameList columns).parenthesized)
      exact ((((require _ _).behind (part _).parenthesized).before (Composed.label label)).before
        hcolumns)

end Output.Composed

namespace Output.AllComposed

variable (d : Dialect)

theorem joinLevels (js : List TableJoin) :
    AllComposed ((TableJoin.parts js).map (Node.output d)) (Render.joinLevels d js).flatten := by
  cases js with
  | nil => simpa [TableJoin.parts, Render.joinLevels] using nil
  | cons j js =>
      obtain ⟨type, ⟨reference, label, joins⟩, p, lateral⟩ := j
      have hown := ((Composed.joinHead d type p lateral).behind
        (Composed.tableReference d label reference)).append
        (Composed.joinCondition d type p lateral)
      have hfirst := (singleton hown).append (joinLevels joins)
      rw [TableJoin.parts, Render.joinLevels, List.map_append, List.map_append, List.map_append]
      exact hfirst.union (joinLevels js) fun o => Layers.mem_mergeLevels

theorem tableGroups (gs : List TableGroup) :
    AllComposed ((gs.flatMap TableGroup.parts).map (Node.output d)) (Render.tableGroups d gs) := by
  match gs with
  | [] => exact nil
  | ⟨reference, label, joins⟩ :: gs =>
      have hgroup := (Composed.tableReference d label reference).append
        ((joinLevels d joins).composed (Composed.concat _))
      rw [List.flatMap_cons, List.map_append, Render.tableGroups, Render.tableGroup,
        TableGroup.parts, List.map_append]
      exact (singleton hgroup).append (tableGroups gs)

end Output.AllComposed

theorem Output.Composed.tables (d : Dialect) (s : QuerySpec) :
    Composed (s.tables.map (Node.output d)) (Render.fromClause d (Render.tableGroups d s.roots)) :=
  (AllComposed.tableGroups d s.roots).composed (Composed.fromClause d _)

end DialectSql
