import DialectSql.Proofs.Layer.Query

namespace DialectSql.Output.Layers

variable (L : Layers) (d : Dialect)

theorem columnList (columns : List String) : L.query (Render.columnList columns) := by
  rw [Render.columnList]
  split
  · exact L.ofQuery.empty
  · exact L.ofQuery.append (L.ofQuery.fixed " " rfl) (L.ofQuery.parenthesized (L.nameList columns))

theorem materialization (m : CteMaterialization) : L.query (Render.materialization d m) := by
  rw [Render.materialization.eq_def]
  split
  · cases m with
    | undefined => exact L.ofQuery.empty
    | materialized | notMaterialized => exact L.ofQuery.fixed _ rfl
  · exact L.ofQuery.empty

theorem searchItem (i : SearchItem) : L.source (Render.searchItem i) :=
  L.ofSource.append (L.ofSource.name i.column)
    (L.ofSource.when _ (L.ofSource.fixed " desc" rfl))

theorem searchClause (rule : SearchRule) (search : Option SearchClause) :
    L.query (Render.searchClause d rule search) := by
  rw [Render.searchClause.eq_def]
  split
  · rename_i search
    rw [Render.searchStandard]
    split
    · exact L.ofQuery.empty
    · have hkind : L.query (.word search.kind.sql) := by
        cases search.kind <;> exact L.ofQuery.fixed _ rfl
      have hitems : L.query (.list (search.items.map Render.searchItem)) :=
        L.query_of_source (L.list (List.forall_mem_map.2 fun i _ => L.searchItem i))
      have hby := L.ofQuery.append (L.ofQuery.append (L.ofQuery.fixed " search " rfl) hkind)
        (L.ofQuery.fixed " by " rfl)
      exact L.ofQuery.append (L.ofQuery.append (L.ofQuery.append hby hitems)
        (L.ofQuery.fixed " set " rfl)) (L.ofQuery.name _)
  · exact L.ofQuery.empty

theorem insertRow (columns : List String) (row : List Expr) :
    L.source (Render.insertRow d columns row) :=
  L.ofSource.append (L.ofSource.require _ _)
    (L.ofSource.parenthesized (L.operandList (L.operandsHolds d row)))

theorem insertValues (columns : List String) (rows : List (List Expr)) :
    L.query (Render.insertSource d columns (.values rows)) := by
  have hrows : L.query (Render.insertRows d columns rows) :=
    L.query_of_source (L.list (List.forall_mem_map.2 fun row _ => L.insertRow d columns row))
  exact L.ofQuery.append (L.ofQuery.append (L.ofQuery.append (L.ofQuery.require _ _)
    (L.columnList columns)) (L.ofQuery.fixed " values " rfl)) hrows

theorem insertDefaultValues (columns : List String) :
    L.query (Render.insertSource d columns .defaultValues) :=
  L.ofQuery.append (L.ofQuery.require _ _) (L.ofQuery.fixed " default values" rfl)

theorem insertTarget (t : NamedTable) : L.query (.word "insert into " ++ Render.namedTable t) :=
  L.ofQuery.append (L.ofQuery.fixed _ rfl) (L.query_of_expression (L.namedTable t))

theorem assignment (a : Assignment) : L.condition (Render.assignment d a) :=
  L.condition_of_test (L.ofTest.append
    (L.ofTest.append (L.ofTest.name a.column) (L.ofTest.fixed "=" rfl))
    (L.test_of_expression (L.operand (L.operandHolds d a.value))))

theorem whereClause (p : Option Predicate) : L.query (Render.whereClause d p) :=
  L.condition_of_given L.ofQuery " where " rfl p fun c hc =>
    L.query_of_condition (L.optionalPredicateHolds d p c hc)

theorem update (s : UpdateStatement) : L.query (Render.update d s) := by
  have htarget := L.ofQuery.append (L.ofQuery.append
    (L.ofQuery.require (!s.assignments.isEmpty) (.invalid .updateWithoutAssignments))
    (L.ofQuery.fixed "update " rfl)) (L.query_of_expression (L.namedTable s.target))
  have hassignments : L.query (.list (s.assignments.map (Render.assignment d))) :=
    L.query_of_source (L.list (List.forall_mem_map.2 fun a _ =>
      L.source_of_condition (L.assignment d a)))
  exact L.ofQuery.append (L.ofQuery.append (L.ofQuery.append htarget
    (L.ofQuery.fixed " set " rfl)) hassignments) (L.whereClause d s.restriction)

theorem delete (s : DeleteStatement) : L.query (Render.delete d s) :=
  L.ofQuery.append (L.ofQuery.append (L.ofQuery.fixed "delete from " rfl)
    (L.query_of_expression (L.namedTable s.target))) (L.whereClause d s.restriction)

end DialectSql.Output.Layers
