import DialectSql.Entity.Operation
import DialectSql.Proofs.Output
import DialectSql.Proofs.Store.Texts

namespace DialectSql

namespace Output

theorem ofPieces_append (ps qs : List Piece) : ofPieces ps ++ ofPieces qs = ofPieces (ps ++ qs) := rfl

theorem joined_ofPieces (separator : String) (pss : List (List Piece)) :
    joined separator (pss.map ofPieces) = ofPieces ([.word separator].intercalate pss) := by
  induction pss with
  | nil => rfl
  | cons ps pss ih =>
      cases pss with
      | nil => simp [joined]
      | cons qs qss =>
          simp only [List.map_cons] at ih
          rw [List.map_cons, List.map_cons, joined_cons_cons, ih, List.intercalate_cons_cons]
          rfl

end Output

namespace Render

theorem outputs_parameters (d : Dialect) (slots : List BindSlot) :
    operandOutputs (operands d (slots.map .parameter)) =
      (slots.map fun s => [Piece.slot s]).map .ofPieces := by
  induction slots with
  | nil => rfl
  | cons s slots ih =>
      rw [List.map_cons, operands, operandOutputs, ih]
      rfl

/-- No rule for comparisons concerns the equality of two values. -/
theorem predicate_equal (d : Dialect) (k : String) (s : BindSlot) :
    predicate d (.comparison (.column none k) .equal (.parameter s)) =
      .ofPieces [.name k, .word "=", .slot s] := by
  have hintersect : Comparison.intersect d (operand d (.column none k)) .equal
      (operand d (.parameter s)) = Comparison.standard d (operand d (.column none k)) .equal
        (operand d (.parameter s)) := by
    have hop : ComparisonOperator.equal.isDistinctness = false := rfl
    rw [Comparison.intersect, hop, if_neg Bool.false_ne_true]
  have hstandard : Comparison.standard d (operand d (.column none k)) .equal
      (operand d (.parameter s)) = .ofPieces [.name k, .word "=", .slot s] := by
    simp only [operand, Comparison.standard]
    rfl
  rw [predicate, Comparison.render.eq_def]
  split
  · exact hstandard
  · exact hintersect.trans hstandard
  · exact hstandard

theorem junction_conjunction {os : List Output} (hne : os ≠ []) :
    junction .conjunction (os.map fun o => (false, o)) = .joined " and " os := by
  match os with
  | [] => exact absurd rfl hne
  | [o] => rfl
  | o :: p :: os => simp [junction, wrap, Function.comp_def, JunctionNature.separator]

end Render

namespace TableMapping

variable (t : TableMapping)

def tableName : Store.TableName := ⟨t.schema, t.name⟩

def slot (usage : ParameterUsage) (column : String) : BindSlot := .column t.name column usage

def tablePieces : List Piece :=
  match t.schema with
  | some s => [.name s, .word ".", .table t.name]
  | none => [.table t.name]

def insertSlots (keyUsage : ParameterUsage) : List BindSlot :=
  t.keys.map (t.slot keyUsage) ++ t.columns.map (t.slot .set)

def columnPieces : List Piece :=
  if (t.keys ++ t.columns).isEmpty then []
  else .word " " :: .word "(" ::
    ([.word ", "].intercalate ((t.keys ++ t.columns).map fun c => [.name c]) ++ [.word ")"])

def insertPieces (keyUsage : ParameterUsage) : List Piece :=
  .word "insert into " :: (t.tablePieces ++ (t.columnPieces ++ .word " values " :: .word "(" ::
    ([.word ", "].intercalate ((t.insertSlots keyUsage).map fun s => [.slot s]) ++ [.word ")"])))

def equationPieces (usage : ParameterUsage) (column : String) : List Piece :=
  [.name column, .word "=", .slot (t.slot usage column)]

def wherePieces : List Piece :=
  if t.keys.isEmpty then []
  else .word " where " :: [.word " and "].intercalate (t.keys.map (t.equationPieces .restrict))

def updatePieces : List Piece :=
  .word "update " :: (t.tablePieces ++ .word " set " ::
    ([.word ", "].intercalate (t.columns.map (t.equationPieces .set)) ++ t.wherePieces))

def deletePieces : List Piece := .word "delete from " :: (t.tablePieces ++ t.wherePieces)

def insertSql (style : PlaceholderStyle) (keyUsage : ParameterUsage) : TranslatedSql :=
  Translation.ofPieces style (t.insertPieces keyUsage)

def updateSql (style : PlaceholderStyle) : TranslatedSql := Translation.ofPieces style t.updatePieces

def deleteSql (style : PlaceholderStyle) : TranslatedSql := Translation.ofPieces style t.deletePieces

theorem output_namedTable : Render.namedTable t.namedTable = .ofPieces t.tablePieces := by
  obtain ⟨name, schema, keys, columns, optional⟩ := t
  cases schema <;> rfl

theorem foldl_value (values : List (String × Expr)) (target : NamedTable) (columns : List String)
    (row : List Expr) :
    values.foldl (fun (s : InsertStatement) v => s.value v.1 v.2) ⟨target, columns, .values [row]⟩ =
      ⟨target, columns ++ values.map (·.1), .values [row ++ values.map (·.2)]⟩ := by
  induction values generalizing columns row with
  | nil => simp
  | cons v values ih =>
      rw [List.foldl_cons]
      exact (ih (columns ++ [v.1]) (row ++ [v.2])).trans (by simp)

theorem insertStatement_eq (keyUsage : ParameterUsage) :
    t.insertStatement keyUsage =
      .insert ⟨t.namedTable, t.keys ++ t.columns,
        .values [(t.insertSlots keyUsage).map .parameter]⟩ := by
  rw [insertStatement]
  simp only [InsertStatement.into, foldl_value]
  simp [insertSlots, Function.comp_def, parameter, Expr.columnParameter, slot]

theorem foldl_set (columns : List String) (s : UpdateStatement) :
    columns.foldl (fun (s : UpdateStatement) c => s.set c (t.parameter .set c)) s =
      { s with assignments := s.assignments ++ columns.map fun c => ⟨c, t.parameter .set c⟩ } := by
  induction columns generalizing s with
  | nil => simp
  | cons c columns ih =>
      rw [List.foldl_cons, ih]
      simp [UpdateStatement.set]

theorem updateStatement_eq :
    t.updateStatement = .update ⟨t.namedTable, t.columns.map fun c => ⟨c, t.parameter .set c⟩,
      some t.keyRestriction⟩ := by
  rw [updateStatement, foldl_set]
  rfl

theorem output_columns : Render.columnList (t.keys ++ t.columns) = .ofPieces t.columnPieces := by
  have hnames : Output.nameList (t.keys ++ t.columns) =
      .ofPieces ([.word ", "].intercalate ((t.keys ++ t.columns).map fun c => [.name c])) := by
    rw [← Output.joined_ofPieces, List.map_map]
    rfl
  rw [Render.columnList, columnPieces]
  split
  · rfl
  · simp only [hnames, Output.parenthesized, Output.word, Output.ofPieces_append]
    rfl

variable (d : Dialect)

theorem output_insert (keyUsage : ParameterUsage) :
    Render.statement d .unlocked (t.insertStatement keyUsage) =
      .ofPieces (t.insertPieces keyUsage) := by
  have hlength : ((t.insertSlots keyUsage).map Expr.parameter).length =
      (t.keys ++ t.columns).length := by
    simp [insertSlots]
  rw [insertStatement_eq, Render.statement, Render.insert, output_namedTable, Render.insertSource,
    output_columns, Render.insertRows, List.map_cons, List.map_nil, Render.insertRow, hlength,
    Render.outputs_parameters]
  simp only [Output.list, Output.joined, Output.joined_ofPieces, beq_self_eq_true, Bool.or_true,
    Output.require_true, Output.empty_append, List.isEmpty_cons, Bool.not_false,
    Output.parenthesized, Output.word, Output.ofPieces_append, insertPieces]
  simp only [List.append_assoc, List.cons_append, List.nil_append]

/-- Without keys there is no restriction. -/
theorem output_keyRestriction :
    Render.whereClause d (some t.keyRestriction) = .ofPieces t.wherePieces := by
  have hmembers (keys : List String) : Render.predicates d
      (keys.map fun k => (Expr.column none k).compare .equal (t.parameter .restrict k)) =
        ((keys.map (t.equationPieces .restrict)).map .ofPieces).map fun o => (false, o) := by
    induction keys with
    | nil => rfl
    | cons k keys ih =>
        rw [List.map_cons, Render.predicates, ih]
        simp only [Expr.compare, parameter, Expr.columnParameter, Render.predicate_equal,
          Render.isCompound, List.map_cons]
        rfl
  have hempty : t.keyRestriction.isEmpty = t.keys.isEmpty := by
    simp [keyRestriction, Predicate.conjunction, Predicate.isEmpty]
  rw [Render.whereClause, Render.condition, wherePieces]
  simp only [hempty]
  by_cases hkeys : t.keys = []
  · simp [hkeys]
    rfl
  · have hjunction : Render.predicate d t.keyRestriction =
        .ofPieces ([.word " and "].intercalate (t.keys.map (t.equationPieces .restrict))) := by
      rw [keyRestriction, Predicate.conjunction, Render.predicate, hmembers,
        Render.junction_conjunction (by simpa using hkeys), Output.joined_ofPieces]
    simp only [List.isEmpty_iff, hkeys, if_false, Render.optionalPredicate, hjunction]
    rfl

theorem output_update (hcolumns : t.columns ≠ []) :
    Render.statement d .unlocked t.updateStatement = .ofPieces t.updatePieces := by
  have hassignments : (t.columns.map fun c => (⟨c, t.parameter .set c⟩ : Assignment)).map
      (Render.assignment d) = (t.columns.map (t.equationPieces .set)).map .ofPieces := by
    simp only [List.map_map]
    rfl
  have hnonempty : (t.columns.map fun c => (⟨c, t.parameter .set c⟩ : Assignment)).isEmpty = false := by
    simpa using hcolumns
  rw [updateStatement_eq, Render.statement, Render.update, output_namedTable,
    output_keyRestriction t d, hassignments, hnonempty]
  simp only [Output.list, Output.joined_ofPieces, Bool.not_false, Output.require_true,
    Output.empty_append, Output.word, Output.ofPieces_append, updatePieces]
  simp only [List.append_assoc, List.cons_append, List.nil_append]

theorem output_delete :
    Render.statement d .unlocked t.deleteStatement = .ofPieces t.deletePieces := by
  change Render.delete d ⟨t.namedTable, some t.keyRestriction⟩ = _
  rw [Render.delete, output_namedTable, output_keyRestriction t d]
  rfl

variable {d}

theorem renderMutation_ofPieces {s : Statement} {ps : List Piece}
    (h : Render.statement d .unlocked s = .ofPieces ps) :
    renderMutation d s = .ok (Translation.ofPieces d.capabilities.placeholder ps) := by
  rw [renderMutation, translate, translateWithLock, h]
  rfl

theorem filterMap_intercalate {α β : Type} {f : α → Option β} {separator : List α}
    (h : separator.filterMap f = []) (xss : List (List α)) :
    (separator.intercalate xss).filterMap f = xss.flatMap fun xs => xs.filterMap f := by
  induction xss with
  | nil => rfl
  | cons xs xss ih =>
      cases xss with
      | nil => simp
      | cons ys yss =>
          rw [List.intercalate_cons_cons, List.filterMap_append, List.filterMap_append, ih, h,
            List.append_nil]
          rfl

theorem slots_tablePieces : t.tablePieces.filterMap Piece.slot? = [] := by
  rw [tablePieces]
  cases t.schema <;> rfl

theorem slots_equations (usage : ParameterUsage) (names : List String) :
    (names.map (t.equationPieces usage)).flatMap (fun ps => ps.filterMap Piece.slot?) =
      names.map (t.slot usage) := by
  induction names with
  | nil => rfl
  | cons n names ih =>
      rw [List.map_cons, List.flatMap_cons, ih]
      rfl

theorem slots_names (names : List String) :
    (names.map fun c => [Piece.name c]).flatMap (fun ps => ps.filterMap Piece.slot?) = [] := by
  induction names with
  | nil => rfl
  | cons n names ih =>
      rw [List.map_cons, List.flatMap_cons, ih]
      rfl

theorem slots_columnPieces : t.columnPieces.filterMap Piece.slot? = [] := by
  have hcomma : [Piece.word ", "].filterMap Piece.slot? = [] := rfl
  rw [columnPieces]
  split
  · rfl
  · simp only [List.filterMap_cons, List.filterMap_append, List.filterMap_nil, Piece.slot?,
      filterMap_intercalate hcomma, slots_names, List.append_nil]

variable (style : PlaceholderStyle)

theorem parameters_insertSql (keyUsage : ParameterUsage) :
    (t.insertSql style keyUsage).parameters = t.insertSlots keyUsage := by
  have hslots (slots : List BindSlot) :
      (slots.map fun s => [Piece.slot s]).flatMap (fun ps => ps.filterMap Piece.slot?) = slots := by
    induction slots with
    | nil => rfl
    | cons s slots ih =>
        rw [List.map_cons, List.flatMap_cons, ih]
        rfl
  have hcomma : [Piece.word ", "].filterMap Piece.slot? = [] := rfl
  change (t.insertPieces keyUsage).filterMap Piece.slot? = _
  simp only [insertPieces, List.filterMap_cons, List.filterMap_append, List.filterMap_nil, Piece.slot?,
    slots_tablePieces, slots_columnPieces, filterMap_intercalate hcomma, hslots, List.append_nil,
    List.nil_append]

theorem slots_wherePieces : t.wherePieces.filterMap Piece.slot? = t.keys.map (t.slot .restrict) := by
  have hand : [Piece.word " and "].filterMap Piece.slot? = [] := rfl
  rw [wherePieces]
  split
  · rename_i hkeys
    rw [List.isEmpty_iff.1 hkeys]
    rfl
  · simp only [List.filterMap_cons, Piece.slot?, filterMap_intercalate hand, slots_equations]

theorem parameters_updateSql : (t.updateSql style).parameters =
    t.columns.map (t.slot .set) ++ t.keys.map (t.slot .restrict) := by
  have hcomma : [Piece.word ", "].filterMap Piece.slot? = [] := rfl
  change t.updatePieces.filterMap Piece.slot? = _
  simp only [updatePieces, List.filterMap_cons, List.filterMap_append, Piece.slot?,
    slots_tablePieces, filterMap_intercalate hcomma, slots_equations, slots_wherePieces,
    List.nil_append]

theorem parameters_deleteSql : (t.deleteSql style).parameters = t.keys.map (t.slot .restrict) := by
  change t.deletePieces.filterMap Piece.slot? = _
  simp only [deletePieces, List.filterMap_cons, List.filterMap_append, Piece.slot?,
    slots_tablePieces, slots_wherePieces, List.nil_append]

end TableMapping

end DialectSql
