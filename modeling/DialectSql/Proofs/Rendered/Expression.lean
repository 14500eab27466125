import DialectSql.Proofs.Rendered.Composition

namespace DialectSql.Output.Composed

variable {ms ns : List Output} {o l r : Output}

theorem value (v : SqlValue) : Composed [] (.ofPieces v.pieces) := by
  have hword (w : String) (hw : Lexeme.isFixed w = true) (s : String) :
      Composed [] (.ofPieces [.word w, .quoted s]) :=
    (word hw).append (unit (p := .quoted s) rfl)
  cases v with
  | blob bytes => exact hword "X" rfl _
  | timestamp t => exact hword "timestamp " rfl _
  | null | text => exact unit rfl
  | bool b => cases b <;> exact unit rfl
  | int n => exact unit (isTidy_int _)
  | float x => exact unit x.isTidy_statementText

theorem literal (d : Dialect) (v : SqlValue) : Composed [] (Render.literal d v) := by
  rw [Render.literal.eq_def]
  split
  · rename_i b _
    cases b <;> exact unit rfl
  · exact value _

theorem qualified (qualifier : Option String) (h : Composed ms o) :
    Composed ms (Render.qualified qualifier o) := by
  cases qualifier with
  | none => exact h
  | some q => exact ((name q).append (word rfl)).behind h

theorem summarization (d : Dialect) (kind : SummarizationKind) (groupings : List Output) :
    Composed groupings (Render.summarization d kind groupings) := by
  rw [Render.summarization]
  split
  · exact fail _ _
  · cases kind <;> exact (word rfl).behind (list groupings).parenthesized

theorem wrap (condition : Bool) (h : Composed ms o) : Composed ms (Render.wrap condition o) := by
  cases condition with
  | false => exact h
  | true => exact h.parenthesized

theorem binary (left : Expr) (op : BinaryOp) (right : Expr) (l r : Output) :
    Composed [.word " " ++ .word op.sql ++ .word " ", l, r] (Render.binary left op right l r) := by
  have hop := part (.word " " ++ .word op.sql ++ .word " ")
  have h := (((part l).wrap (Render.needsParens op false left)).append hop).append
    ((part r).wrap (Render.needsParens op true right))
  simp only [Output.append_assoc] at h
  refine .congr (by simpa only [Render.binary, Output.append_assoc] using h) fun m => ?_
  simp only [List.mem_append, List.mem_cons, List.not_mem_nil, or_false]
  tauto

/-- A sign is not put together with any operand, so the whole is kept. -/
theorem negation (e : Expr) (o : Output) : Composed [Render.negation e o, o] (Render.negation e o) where
  inside m hm := by
    rcases List.mem_pair.1 hm with rfl | rfl
    · exact .refl _
    · exact (((part m).wrap _).inside m (List.mem_singleton_self m)).right _
  holds _ h := h _ List.mem_cons_self

theorem call (f : String) (args : List Output) (distinct : Bool) :
    Composed args (Render.call f args distinct) :=
  ((((name f).append (word rfl)).append (when distinct (word rfl))).behind (list args)).before
    (word rfl)

theorem clause {w : String} (hw : Lexeme.isFixed w = true)
    (o : Option Output) : Composed o.toList (.clause w o) := by
  cases o with
  | none => exact empty
  | some o => exact (word hw).behind (part o)

theorem caseOf (branches : List Output) (otherwise : Option Output) :
    Composed (branches ++ otherwise.toList) (Render.caseOf branches otherwise) := by
  rw [Render.caseOf]
  split
  · exact fail _ _
  · exact (((word rfl).behind (concat branches)).append (clause rfl otherwise)).before (word rfl)

theorem cast (type : DataType) (h : Composed ms o) :
    Composed ms (.word "cast(" ++ o ++ .word " as " ++ .name type.sql ++ .word ")") :=
  (((((word rfl).behind h).before (word rfl)).before (name type.sql)).before (word rfl))

/-- A list that is left out where it is empty. -/
theorem keyed {w : String} (hw : Lexeme.isFixed w = true)
    (os : List Output) :
    Composed os (if os.isEmpty then .empty else .word w ++ .list os) := by
  cases os with
  | nil => exact empty
  | cons o os => exact (word hw).behind (list (o :: os))

theorem windowed (f : Output) (partitionBy keys : List Output) (frame : Option WindowFrame) :
    Composed (f :: (partitionBy ++ keys)) (Render.windowed f partitionBy keys frame) := by
  have hclause {w : String} (hw : Lexeme.isFixed w = true)
      (os : List Output) :
      AllComposed os (if os.isEmpty then [] else [.word w ++ .list os]) := by
    cases os with
    | nil => exact .nil
    | cons o os => exact .singleton ((word hw).behind (list (o :: os)))
  have hframe : AllComposed [] (frame.toList.map fun f => .word f.sql) := by
    cases frame with
    | none => exact .nil
    | some f =>
        exact .singleton (word (Lexeme.isFixed_of_avoids (Lexeme.standing_frame f).1 (isTidy_frame f)))
  have hall := ((hclause (w := "partition by ") rfl partitionBy).append
    (hclause (w := "order by ") rfl keys)).append hframe
  rw [List.append_nil] at hall
  exact ((part f).before (word rfl)).append (hall.composed (joined rfl _)).parenthesized

theorem sortKey (d : Dialect) (direction : OrderDirection) (nulls : Option NullOrdering)
    (h : Composed ms o) : Composed ms (Render.sortKey d direction nulls o) := by
  have hdescending : Composed [] (.when (direction == .desc) (.word " desc")) := when _ (word rfl)
  rw [Render.sortKey.eq_def]
  split
  · exact h.before hdescending
  · rename_i nulls
    split
    · have hnulls : Composed [] (.word nulls.sql) := by cases nulls <;> exact word rfl
      exact ((h.before hdescending).before (word rfl)).before hnulls
    · have hkey (a b : String) (ha : Lexeme.isFixed a = true)
          (hb : Lexeme.isFixed b = true) :
          Composed ms (.word "case when " ++ o ++ .word " is null then " ++ .word a ++
            .word " else " ++ .word b ++ .word " end, ") :=
        ((((((word rfl).behind h).before (word rfl)).before (word ha)).before (word rfl)).before
          (word hb)).before (word rfl)
      have hboth (a b : String) (ha : Lexeme.isFixed a = true)
          (hb : Lexeme.isFixed b = true) :
          Composed ms (.word "case when " ++ o ++ .word " is null then " ++ .word a ++
            .word " else " ++ .word b ++ .word " end, " ++ o ++
            .when (direction == .desc) (.word " desc")) :=
        (((hkey a b ha hb).append h).before hdescending).congr (by simp)
      cases nulls with
      | first => exact hboth "0" "1" rfl rfl
      | last => exact hboth "1" "0" rfl rfl

theorem orderBy (keys : List Output) : Composed keys (Render.orderBy keys) := keyed rfl keys

end DialectSql.Output.Composed
