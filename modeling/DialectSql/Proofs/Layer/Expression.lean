import DialectSql.Proofs.Layer.Comparison
import DialectSql.Proofs.Layer.Frame

namespace DialectSql.Output.Layers

variable (L : Layers)

theorem value (v : SqlValue) : L.expression (.ofPieces v.pieces) := by
  have hword (w : String) (hw : (Lexeme.ofWord w).all Lexeme.ofExpression = true) (s : String) :
      L.expression (.ofPieces [.word w, .quoted s]) :=
    L.ofExpression.append (L.ofExpression.word hw) (L.ofExpression.unit (p := .quoted s) rfl rfl)
  cases v with
  | blob bytes => exact hword "X" (by decide) _
  | timestamp t => exact hword "timestamp " (by decide) _
  | null | bool | int | float | text => exact L.ofExpression.unit rfl rfl

theorem literal (d : Dialect) (v : SqlValue) : L.expression (Render.literal d v) := by
  rw [Render.literal.eq_def]
  split
  · exact L.ofExpression.unit rfl rfl
  · exact L.value _

theorem qualified (qualifier : Option String) {last : Output} (h : L.expression last) :
    L.expression (Render.qualified qualifier last) := by
  cases qualifier with
  | none => exact h
  | some q =>
      exact L.ofExpression.append
        (L.ofExpression.append (L.ofExpression.name q) (L.ofExpression.fixed _ rfl)) h

theorem summarization (d : Dialect) (kind : SummarizationKind) {groupings : List Output}
    (h : ∀ o ∈ groupings, L.expression o) :
    L.expression (Render.summarization d kind groupings) := by
  rw [Render.summarization]
  split
  · exact L.ofExpression.fail _
  · have hlist := L.ofExpression.parenthesized (L.expressionList h)
    cases kind <;> exact L.ofExpression.append (L.ofExpression.fixed _ rfl) hlist

theorem wrap (condition : Bool) {o : Output} (h : L.expression o) :
    L.expression (Render.wrap condition o) := by
  cases condition with
  | false => exact h
  | true => exact L.ofExpression.parenthesized (L.query_of_expression h)

theorem binary (left : Expr) (op : BinaryOp) (right : Expr) {l r : Output} (hl : L.expression l)
    (hr : L.expression r) : L.expression (Render.binary left op right l r) := by
  have hop : L.expression (.word op.sql) := by cases op <;> exact L.ofExpression.fixed _ rfl
  have hblank := L.ofExpression.fixed " " rfl
  exact L.ofExpression.append (L.ofExpression.append (L.ofExpression.append
    (L.ofExpression.append (L.wrap _ hl) hblank) hop) hblank) (L.wrap _ hr)

theorem negation (e : Expr) {o : Output} (h : L.expression o) :
    L.expression (Render.negation e o) :=
  L.ofExpression.append (L.ofExpression.fixed _ rfl) (L.wrap _ h)

theorem call (name : String) {args : List Output} (distinct : Bool)
    (h : ∀ o ∈ args, L.expression o) : L.expression (Render.call name args distinct) := by
  have hinner := L.ofQuery.append
    (L.ofQuery.when distinct (L.ofQuery.fixed "distinct " rfl)) (L.expressionList h)
  have hgroup := L.ofExpression.bracketed .paren "(" ")" rfl rfl hinner
  have hall := L.ofExpression.append (L.ofExpression.name name) hgroup
  simpa only [Render.call, Output.append_assoc] using hall

theorem caseOf {branches : List Output} {otherwise : Option Output}
    (hb : ∀ o ∈ branches, L.query o) (ho : ∀ o, otherwise = some o → L.query o) :
    L.expression (Render.caseOf branches otherwise) := by
  rw [Render.caseOf]
  split
  · exact L.ofExpression.fail _
  · have hinner := L.ofQuery.append (L.ofQuery.concat hb)
      (L.ofQuery.clause " else " rfl ho)
    have hgroup := L.ofExpression.bracketed .case "case" " end" rfl rfl hinner
    simpa only [Output.append_assoc] using hgroup

theorem cast {o : Output} (type : DataType) (h : L.expression o) :
    L.expression (.word "cast(" ++ o ++ .word " as " ++ .name type.sql ++ .word ")") := by
  have hinner := L.ofQuery.append (L.ofQuery.append (L.query_of_expression h)
    (L.ofQuery.fixed " as " rfl)) (L.ofQuery.name type.sql)
  have hgroup := L.ofExpression.bracketed .paren "cast(" ")" rfl rfl hinner
  simpa only [Output.append_assoc] using hgroup

theorem keyedList (keyword : String) {os : List Output}
    (hk : (Lexeme.ofWord keyword).all Lexeme.ofClause = true) (h : ∀ o ∈ os, L.source o) :
    L.clause (.word keyword ++ .list os) :=
  L.ofClause.append (L.ofClause.word hk) (L.clause_of_source (L.list h))

/-- The clauses of a window. -/
theorem window {partitionBy keys : List Output} (frame : Option WindowFrame)
    (hp : ∀ o ∈ partitionBy, L.source o) (hk : ∀ o ∈ keys, L.source o) :
    L.query (.joined " " (
      ((if partitionBy.isEmpty then [] else [.word "partition by " ++ .list partitionBy]) ++
        if keys.isEmpty then [] else [.word "order by " ++ .list keys]) ++
      frame.toList.map fun f => .word f.sql)) := by
  have hpartition := L.query_of_clause (L.keyedList "partition by " rfl hp)
  have hkeys := L.query_of_clause (L.keyedList "order by " rfl hk)
  have hframe (f : WindowFrame) : L.query (.word f.sql) := by
    have hframe := List.all_eq_true.1 (Lexeme.standing_frame f).1
    exact L.ofQuery.word (List.all_eq_true.2 fun l hl => Lexeme.ofQuery_of_avoids (hframe l hl))
  refine L.ofQuery.joined rfl fun o ho => ?_
  simp only [List.mem_append, List.mem_map] at ho
  rcases ho with (ho | ho) | ⟨f, -, rfl⟩
  · split at ho
    · cases ho
    · rwa [List.mem_singleton.1 ho]
  · split at ho
    · cases ho
    · rwa [List.mem_singleton.1 ho]
  · exact hframe f

theorem windowed {function : Output} {partitionBy keys : List Output} (frame : Option WindowFrame)
    (hf : L.expression function) (hp : ∀ o ∈ partitionBy, L.source o)
    (hk : ∀ o ∈ keys, L.source o) :
    L.expression (Render.windowed function partitionBy keys frame) :=
  L.ofExpression.append (L.ofExpression.append hf (L.ofExpression.fixed _ rfl))
    (L.ofExpression.parenthesized (L.window frame hp hk))

theorem partitionItem (rule : PartitionRule) (e : Expr) {o : Output} (h : L.expression o) :
    L.expression (Render.partitionItem rule e o) := by
  have hquoted := L.ofExpression.unit (p := .quoted "0") rfl rfl
  have hbars := L.ofExpression.fixed " || " rfl
  rw [Render.partitionItem.eq_def]
  split
  · exact L.ofExpression.pair (b := .paren) (by decide)
  · exact h
  · exact L.ofExpression.append hquoted (L.ofExpression.append hbars hquoted)
  · exact L.ofExpression.fail _
  · exact h

theorem nullKey {o : Output} (h : L.expression o) {whenNull otherwise : String}
    (hn : (Lexeme.ofWord whenNull).all Lexeme.ofQuery = true)
    (ho : (Lexeme.ofWord otherwise).all Lexeme.ofQuery = true) :
    L.source (.word "case when " ++ o ++ .word " is null then " ++ .word whenNull ++
      .word " else " ++ .word otherwise ++ .word " end, ") := by
  have htest := L.ofQuery.append (L.query_of_expression h)
    (L.ofQuery.fixed " is null then " rfl)
  have hinner := L.ofQuery.append (L.ofQuery.append (L.ofQuery.append htest (L.ofQuery.word hn))
    (L.ofQuery.fixed " else " rfl)) (L.ofQuery.word ho)
  have hgroup := L.ofSource.bracketed .case "case when " " end, " rfl rfl hinner
  simpa only [Output.append_assoc] using hgroup

theorem sortKey (d : Dialect) (direction : OrderDirection) (nulls : Option NullOrdering)
    {o : Output} (h : L.expression o) : L.source (Render.sortKey d direction nulls o) := by
  have ho := L.source_of_expression h
  have hdescending := L.ofSource.when (direction == .desc) (L.ofSource.fixed " desc" rfl)
  rw [Render.sortKey.eq_def]
  split
  · exact L.ofSource.append ho hdescending
  · rename_i nulls
    split
    · have hnulls : L.source (.word nulls.sql) := by
        cases nulls <;> exact L.ofSource.fixed _ rfl
      exact L.ofSource.append (L.ofSource.append (L.ofSource.append ho hdescending)
        (L.ofSource.fixed _ rfl)) hnulls
    · cases nulls with
      | first =>
          exact L.ofSource.append (L.ofSource.append (L.nullKey h (by decide) (by decide)) ho)
            hdescending
      | last =>
          exact L.ofSource.append (L.ofSource.append (L.nullKey h (by decide) (by decide)) ho)
            hdescending

theorem orderBy {keys : List Output} (h : ∀ o ∈ keys, L.source o) :
    L.clause (Render.orderBy keys) := by
  rw [Render.orderBy]
  split
  · exact L.ofClause.empty
  · exact L.keyedList " order by " rfl h

end DialectSql.Output.Layers
