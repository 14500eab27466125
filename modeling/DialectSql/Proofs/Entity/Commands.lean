import DialectSql.Proofs.Entity.Statements

namespace DialectSql.TableMapping

open Store Store.Token

/-- The names of the mapping are names to the database. -/
structure Readable (t : TableMapping) : Prop where
  table : t.tableName.isIdentifier = true
  columns : ∀ n ∈ t.keys ++ t.columns, isIdentifier n = true

instance (t : TableMapping) : Decidable t.Readable :=
  decidable_of_iff (_ ∧ _) ⟨fun ⟨table, columns⟩ => ⟨table, columns⟩, fun h => ⟨h.table, h.columns⟩⟩

variable {t : TableMapping} {style : PlaceholderStyle}

/-- The tokens of an equality whose placeholder has no position yet. -/
def openEquation (column : String) : List Token := [.word column, .symbol '='] ++ [Token.placeholder none]

theorem lexes_tablePieces (h : t.Readable) {ps : List Piece} {ts : List Token}
    (hend : EndsWord style ps) (hps : Lexes style ps ts) :
    Lexes style (t.tablePieces ++ ps) (t.tableName.tokens ++ ts) := by
  have htable := h.table
  obtain ⟨name, schema, keys, columns, optional⟩ := t
  obtain ⟨hschema, hname⟩ := Bool.and_eq_true_iff.1 htable
  cases schema with
  | none => exact .table hname hend hps
  | some s =>
      exact .name hschema (endsWord_word (by rfl) _)
        (.word [Token.symbol '.'] (by rfl) rfl (.table hname hend hps))

theorem lexes_equation (usage : ParameterUsage) {c : String} (hc : isIdentifier c = true)
    {ps : List Piece} {ts : List Token} (hend : EndsWord style ps) (hps : Lexes style ps ts) :
    Lexes style (t.equationPieces usage c ++ ps) (openEquation c ++ ts) :=
  .name hc (endsWord_word (by rfl) _)
    (.word [Token.symbol '='] (by rfl) rfl (.slot _ hend hps))

/-- The tokens of a where clause whose placeholders have no positions yet. -/
def openWhere (keys : List String) : List Token :=
  if keys.isEmpty then []
  else [.word "where"] ++ [.word "and"].intercalate (keys.map openEquation)

theorem lexes_wherePieces (h : t.Readable) : Lexes style t.wherePieces (openWhere t.keys) := by
  have hkeys := Lexes.intercalate [.word "and"] " and " t.keys (t.equationPieces .restrict)
    openEquation (by rfl) rfl (by rfl)
    (fun k hk ps ts hend hps => lexes_equation .restrict (h.columns k (by simp [hk])) hend hps)
    endsWord_nil (@Lexes.nil style)
  rw [List.append_nil, List.append_nil] at hkeys
  rw [wherePieces, openWhere]
  split
  · exact .nil
  · exact .word [.word "where"] (by rfl) rfl hkeys

theorem endsWord_wherePieces : EndsWord style t.wherePieces := by
  rw [wherePieces]
  split
  · exact endsWord_nil
  · exact endsWord_word (by rfl) _

def columnTokens (t : TableMapping) : List Token :=
  if (t.keys ++ t.columns).isEmpty then []
  else [Token.symbol '('] ++
    ([Token.symbol ','].intercalate ((t.keys ++ t.columns).map fun c => [.word c]) ++ [Token.symbol ')'])

theorem lexes_columnPieces (h : t.Readable) {ps : List Piece} {ts : List Token}
    (hps : Lexes style ps ts) : Lexes style (t.columnPieces ++ ps) (t.columnTokens ++ ts) := by
  have hcolumns := Lexes.intercalate [Token.symbol ','] ", " (t.keys ++ t.columns)
    (fun c => [.name c]) (fun c => [.word c]) (by rfl) rfl (by rfl)
    (fun c hc ps ts hend hps => .name (h.columns c hc) hend hps)
    (endsWord_word (w := ")") (by rfl) _) (.word (w := ")") [Token.symbol ')'] (by rfl) rfl hps)
  have hopen := Lexes.word (w := " ") [] (by rfl) rfl
    (.word (w := "(") [Token.symbol '('] (by rfl) rfl hcolumns)
  rw [columnPieces, columnTokens]
  split
  · exact hps
  · simpa using hopen

theorem lexes_insertPieces (h : t.Readable) (keyUsage : ParameterUsage) :
    Lexes style (t.insertPieces keyUsage) ([.word "insert", .word "into"] ++ (t.tableName.tokens ++
      (t.columnTokens ++ ([.word "values"] ++ ([Token.symbol '('] ++
        ([Token.symbol ','].intercalate ((t.insertSlots keyUsage).map fun _ => [Token.placeholder none])
          ++ ([Token.symbol ')'] ++ []))))))) := by
  have hslots := Lexes.intercalate [Token.symbol ','] ", " (t.insertSlots keyUsage)
    (fun s => [.slot s]) (fun _ => [Token.placeholder none]) (by rfl) rfl (by rfl)
    (fun s _ ps ts hend hps => .slot s hend hps) (endsWord_word (w := ")") (by rfl) [])
    (.word [Token.symbol ')'] (by rfl) rfl (@Lexes.nil style))
  have hvalues := Lexes.word (w := " values ") [.word "values"] (by rfl) rfl
    (.word (w := "(") [Token.symbol '('] (by rfl) rfl hslots)
  have hends : EndsWord style (t.columnPieces ++ .word " values " :: .word "(" ::
      ([.word ", "].intercalate ((t.insertSlots keyUsage).map fun s => [.slot s]) ++
        [.word ")"])) := by
    rw [columnPieces]
    split <;> exact endsWord_word (by rfl) _
  exact .word _ (by rfl) rfl (lexes_tablePieces h hends (lexes_columnPieces h hvalues))

theorem lexes_updatePieces (h : t.Readable) :
    Lexes style t.updatePieces ([.word "update"] ++ (t.tableName.tokens ++ ([.word "set"] ++
      ([Token.symbol ','].intercalate (t.columns.map openEquation) ++ openWhere t.keys)))) := by
  have hcolumns := Lexes.intercalate [Token.symbol ','] ", " t.columns (t.equationPieces .set)
    openEquation (by rfl) rfl (by rfl)
    (fun c hc ps ts hend hps => lexes_equation .set (h.columns c (by simp [hc])) hend hps)
    endsWord_wherePieces (@lexes_wherePieces t style h)
  exact .word _ (by rfl) rfl (lexes_tablePieces h (endsWord_word (by rfl) _)
    (.word _ (by rfl) rfl hcolumns))

theorem lexes_deletePieces (h : t.Readable) :
    Lexes style t.deletePieces
      ([.word "delete", .word "from"] ++ (t.tableName.tokens ++ openWhere t.keys)) :=
  .word _ (by rfl) rfl (lexes_tablePieces h endsWord_wherePieces (lexes_wherePieces h))

theorem isSteady_tablePieces : t.tablePieces.all isSteady = true := by
  rw [tablePieces]
  cases t.schema <;> rfl

theorem isSteady_equations (separator : String) (usage : ParameterUsage) (names : List String) :
    ([.word separator].intercalate (names.map (t.equationPieces usage))).all isSteady = true := by
  refine all_intercalate rfl fun ps hps => ?_
  obtain ⟨n, -, rfl⟩ := List.mem_map.1 hps
  rfl

theorem isSteady_columnPieces : t.columnPieces.all isSteady = true := by
  have hnames : ([.word ", "].intercalate ((t.keys ++ t.columns).map fun c => [.name c])).all
      isSteady = true := by
    refine all_intercalate rfl fun ps hps => ?_
    obtain ⟨n, -, rfl⟩ := List.mem_map.1 hps
    rfl
  rw [columnPieces]
  split
  · rfl
  · simp only [List.all_cons, List.all_append, List.all_nil, isSteady, hnames, Bool.and_true]

theorem isSteady_insertPieces (keyUsage : ParameterUsage) :
    (t.insertPieces keyUsage).all isSteady = true := by
  have hslots : ([.word ", "].intercalate ((t.insertSlots keyUsage).map fun s => [.slot s])).all
      isSteady = true := by
    refine all_intercalate rfl fun ps hps => ?_
    obtain ⟨s, -, rfl⟩ := List.mem_map.1 hps
    rfl
  simp only [insertPieces, List.all_cons, List.all_append, List.all_nil, isSteady,
    isSteady_tablePieces, isSteady_columnPieces, hslots, Bool.and_true]

theorem isSteady_wherePieces : t.wherePieces.all isSteady = true := by
  rw [wherePieces]
  split
  · rfl
  · simp only [List.all_cons, isSteady, isSteady_equations, Bool.and_true]

theorem isSteady_updatePieces : t.updatePieces.all isSteady = true := by
  simp only [updatePieces, List.all_cons, List.all_append, isSteady, isSteady_tablePieces,
    isSteady_equations, isSteady_wherePieces, Bool.and_true]

theorem isSteady_deletePieces : t.deletePieces.all isSteady = true := by
  simp only [deletePieces, List.all_cons, List.all_append, isSteady, isSteady_tablePieces,
    isSteady_wherePieces, Bool.and_true]

theorem isPlain_tokens (n : TableName) : n.tokens.all isPlain = true := by
  obtain ⟨schema, name⟩ := n
  cases schema <;> rfl

theorem isPlain_names (names : List String) :
    ([Token.symbol ','].intercalate (names.map fun c => [.word c])).all isPlain = true := by
  refine all_intercalate rfl fun ts hts => ?_
  obtain ⟨n, -, rfl⟩ := List.mem_map.1 hts
  rfl

theorem isPlain_columnTokens : t.columnTokens.all isPlain = true := by
  rw [columnTokens]
  split
  · rfl
  · simp only [List.all_append, isPlain_names, List.all_cons, List.all_nil, isPlain, Bool.and_true]

theorem numberPlaceholders_where (keys : List String) (next : Nat) :
    numberPlaceholders next (openWhere keys) = Command.whereTokens (keys.zipIdx next) := by
  have hkeys := numberPlaceholders_intercalate [.word "and"]
    (fun c => [.word c, .symbol '=']) rfl (fun _ => rfl) keys next []
  rw [List.append_nil, numberPlaceholders, List.append_nil] at hkeys
  have hplain : [Token.word "where"].all isPlain = true := rfl
  have hempty : (keys.zipIdx next).isEmpty = keys.isEmpty := by cases keys <;> rfl
  rw [openWhere, Command.whereTokens, hempty]
  split
  · rfl
  · rw [numberPlaceholders_append hplain]
    exact congrArg ([Token.word "where"] ++ ·) hkeys

theorem ofText?_of_tokens {sql : String} {w : String} {ts : List Token}
    (h : Token.ofText? sql = some (.word w :: ts)) :
    Command.ofText? sql = match Command.keyword w with
      | "insert" => Command.insert? ts
      | "update" => Command.update? ts
      | "delete" => Command.delete? ts
      | "select" => Command.select? (.word w :: ts)
      | _ => none := by
  rw [Command.ofText?, h]
  rfl

theorem ofText?_of_none {sql : String} (h : Token.ofText? sql = none) :
    Command.ofText? sql = none := by
  rw [Command.ofText?, h]
  rfl

/-- A text is read as a command, or its placeholders cannot be read. -/
def ReadsAs (style : PlaceholderStyle) (sql : String) (command : Option Command) : Prop :=
  Command.ofText? sql = command ∨ style = .colon ∧ Command.ofText? sql = none

theorem readsAs_of_tokens {sql w : String} {ts : List Token} {command : Option Command}
    (h : Token.ofText? sql = some (.word w :: ts) ∨ style = .colon ∧ Token.ofText? sql = none)
    (hcommand : (match Command.keyword w with
      | "insert" => Command.insert? ts
      | "update" => Command.update? ts
      | "delete" => Command.delete? ts
      | "select" => Command.select? (.word w :: ts)
      | _ => none) = command) : ReadsAs style sql command :=
  h.imp (fun htokens => (ofText?_of_tokens htokens).trans hcommand)
    (And.imp id ofText?_of_none)

theorem ReadsAs.command_eq {sql : String} {command : Option Command}
    (h : ReadsAs style sql command) (hstyle : style ≠ .colon) : Command.ofText? sql = command :=
  h.resolve_right fun hcolon => hstyle hcolon.1

theorem ReadsAs.eq_of_some {sql : String} {command : Option Command} {read : Command}
    (h : ReadsAs style sql command) (hread : Command.ofText? sql = some read) :
    command = some read := by
  rcases h with h | ⟨-, h⟩
  · exact h.symm.trans hread
  · rw [h] at hread
    cases hread

/-- What the database reads where an insert is rendered. -/
theorem command_insertSql (h : t.Readable) (hne : t.keys ++ t.columns ≠ [])
    (keyUsage : ParameterUsage) :
    ReadsAs style (t.insertSql style keyUsage).sql (some (.insert t.tableName
      (.values (some (t.keys ++ t.columns))
        [(List.range' 1 (t.keys ++ t.columns).length).map .bound]))) := by
  have hlength : (t.insertSlots keyUsage).length = (t.keys ++ t.columns).length := by
    simp [insertSlots]
  have hcolumns : t.columnTokens = [Token.symbol '('] ++
      ([Token.symbol ','].intercalate ((t.keys ++ t.columns).map fun c => [.word c]) ++
        [Token.symbol ')']) := by
    rw [columnTokens, if_neg (by simpa using hne)]
  have hslots : numberPlaceholders 1 ([Token.symbol ','].intercalate
      ((t.insertSlots keyUsage).map fun _ => [Token.placeholder none]) ++ [Token.symbol ')']) =
        [Token.symbol ','].intercalate (((t.insertSlots keyUsage).zipIdx 1).map fun p =>
          [Token.placeholder (some p.2)]) ++ [Token.symbol ')'] :=
    numberPlaceholders_intercalate [Token.symbol ','] (fun _ => []) rfl (fun _ => rfl)
      (t.insertSlots keyUsage) 1 [Token.symbol ')']
  have hnumbers : ((t.insertSlots keyUsage).zipIdx 1).map (fun p => [Token.placeholder (some p.2)]) =
      (List.range' 1 (t.keys ++ t.columns).length).map fun n => [Token.placeholder (some n)] := by
    rw [← hlength, ← List.zipIdx_map_snd, List.map_map]
    rfl
  have hread := ofText?_sql (isSteady_insertPieces keyUsage)
    (@lexes_insertPieces t style h keyUsage)
  rw [numberPlaceholders_append rfl, numberPlaceholders_append (isPlain_tokens _),
    numberPlaceholders_append isPlain_columnTokens, numberPlaceholders_append rfl,
    numberPlaceholders_append rfl, List.append_nil, hslots, hnumbers, hcolumns] at hread
  have htokens : [Token.word "insert", .word "into"] ++ (t.tableName.tokens ++
      ([Token.symbol '('] ++ ([Token.symbol ','].intercalate ((t.keys ++ t.columns).map fun c => [.word c]) ++
        [Token.symbol ')']) ++ ([.word "values"] ++ ([Token.symbol '('] ++ ([Token.symbol ','].intercalate
          ((List.range' 1 (t.keys ++ t.columns).length).map fun n => [Token.placeholder (some n)]) ++
            [Token.symbol ')']))))) =
      .word "insert" :: Command.insertTokens t.tableName (t.keys ++ t.columns) := by
    simp [Command.insertTokens]
  rw [htokens] at hread
  refine readsAs_of_tokens hread ?_
  rw [Command.keyword_of_reserved (w := "insert") (by simp [Command.reserved])]
  exact Command.insert?_tokens h.table hne h.columns

theorem command_updateSql (h : t.Readable) (hcolumns : t.columns ≠ []) :
    ReadsAs style (t.updateSql style).sql (some (.update t.tableName
      ((t.columns.zipIdx 1).map fun p => (p.1, .bound p.2))
      (Command.keyConditions t.keys (t.columns.length + 1)))) := by
  have hassignments : numberPlaceholders 1
      ([Token.symbol ','].intercalate (t.columns.map openEquation) ++ openWhere t.keys) =
        [Token.symbol ','].intercalate ((t.columns.zipIdx 1).map Command.equationTokens) ++
          Command.whereTokens (t.keys.zipIdx (t.columns.length + 1)) := by
    have hcolumns := numberPlaceholders_intercalate [Token.symbol ',']
      (fun c => [.word c, .symbol '=']) rfl (fun _ => rfl) t.columns 1 (openWhere t.keys)
    rwa [Nat.add_comm 1, numberPlaceholders_where] at hcolumns
  have hread := ofText?_sql isSteady_updatePieces (@lexes_updatePieces t style h)
  rw [numberPlaceholders_append rfl, numberPlaceholders_append (isPlain_tokens _),
    numberPlaceholders_append rfl, hassignments] at hread
  refine readsAs_of_tokens hread ?_
  rw [Command.keyword_of_reserved (w := "update") (by simp [Command.reserved])]
  refine Command.update?_tokens h.table hcolumns fun n hn => h.columns n ?_
  exact List.mem_append.2 (List.mem_append.1 hn).symm

theorem command_deleteSql (h : t.Readable) :
    ReadsAs style (t.deleteSql style).sql
      (some (.delete t.tableName (Command.keyConditions t.keys 1))) := by
  have hread := ofText?_sql isSteady_deletePieces (@lexes_deletePieces t style h)
  rw [numberPlaceholders_append rfl, numberPlaceholders_append (isPlain_tokens _),
    numberPlaceholders_where] at hread
  refine readsAs_of_tokens hread ?_
  rw [Command.keyword_of_reserved (w := "delete") (by simp [Command.reserved])]
  exact Command.delete?_tokens h.table fun k hk => h.columns k (List.mem_append_left _ hk)

/-- An insert into no columns is no statement to the database. -/
theorem command_insertSql_empty (h : t.Readable) (hempty : t.keys ++ t.columns = [])
    (keyUsage : ParameterUsage) : Command.ofText? (t.insertSql style keyUsage).sql = none := by
  have hslots : t.insertSlots keyUsage = [] := by
    simpa [insertSlots] using hempty
  have hcolumns : t.columnTokens = [] := by rw [columnTokens, hempty]; rfl
  have hread := ofText?_sql (isSteady_insertPieces keyUsage)
    (@lexes_insertPieces t style h keyUsage)
  rw [numberPlaceholders_append rfl, numberPlaceholders_append (isPlain_tokens _), hslots,
    hcolumns] at hread
  have hreads : ReadsAs style (t.insertSql style keyUsage).sql none := by
    refine readsAs_of_tokens hread ?_
    rw [Command.keyword_of_reserved (w := "insert") (by simp [Command.reserved])]
    exact Command.insert?_emptyTokens h.table
  exact hreads.elim id (·.2)

end DialectSql.TableMapping
