import DialectSql.Proofs.Locking.Translation
import DialectSql.Proofs.Tables.Coverage

namespace DialectSql

/-- A part of a statement, with the names of the common table expressions that it sees. -/
structure Scoped (α : Type) where
  visible : List String
  part : α

def Scoped.map {α β : Type} (f : α → β) (x : Scoped α) : Scoped β := ⟨x.visible, f x.part⟩

/-- What is listed for a part sees what the part sees. -/
def Scoped.each {α β : Type} (f : α → List β) (x : Scoped α) : List (Scoped β) :=
  (f x.part).map (⟨x.visible, ·⟩)

/-- The table is a common table expression and none of the database. -/
def Scoped.IsCte (x : Scoped NamedTable) : Prop :=
  x.part.schema = none ∧ x.part.name ∈ x.visible

/-- The queries of common table expressions. Each sees those declared before it, and itself if it is
recursive. -/
def Cte.queries (declared : List String) : List Cte → List (Scoped Query)
  | [] => []
  | c :: cs =>
    ⟨if c.recursive then c.name :: declared else declared, c.query⟩ ::
      queries (c.name :: declared) cs

def SelectStatement.main (s : SelectStatement) : Scoped Query := ⟨s.ctes.map (·.name), s.query⟩

def SelectStatement.queries (s : SelectStatement) : List (Scoped Query) :=
  Cte.queries [] s.ctes ++ [s.main]

/-- Parts of a statement that see no common table expression. -/
def Scoped.outside {α : Type} (parts : List α) : List (Scoped α) := parts.map (⟨[], ·⟩)

/-- The tables that are named in a statement: the one that it changes, and those of its queries at
any depth. -/
def Statement.references : Statement → List (Scoped NamedTable)
  | .select s => s.queries.flatMap (·.each Query.references)
  | .insert s =>
    Scoped.outside [s.target] ++ match s.source with
      | .values rows => Scoped.outside (rows.flatMap Expr.listReferences)
      | .query q => q.queries.flatMap (·.each Query.references)
      | .defaultValues => []
  | .update s =>
    Scoped.outside (s.target :: s.assignments.flatMap (·.value.references) ++
      Predicate.optionReferences s.restriction)
  | .delete s => Scoped.outside (s.target :: Predicate.optionReferences s.restriction)

/-- The table that a statement changes. -/
def RenderCall.target (t : NamedTable) : RenderCall := .tableGroup ⟨.named t, none, []⟩

def RenderCall.restriction : Option Predicate → List RenderCall
  | some p => if p.isEmpty then [] else [.predicate p]
  | none => []

/-- The calls that render the parts of a statement. -/
def Statement.calls : Statement → List (Scoped RenderCall)
  | .select s => (Cte.queries [] s.ctes).map (·.map .nestedQuery) ++ [s.main.map .query]
  | .insert s =>
    Scoped.outside [.target s.target] ++ match s.source with
      | .values rows => Scoped.outside (rows.map .expressions)
      | .query q => q.queries.map (·.map .nestedQuery)
      | .defaultValues => []
  | .update s =>
    Scoped.outside (.target s.target :: (s.assignments.map fun a => .expression a.value) ++
      RenderCall.restriction s.restriction)
  | .delete s => Scoped.outside (.target s.target :: RenderCall.restriction s.restriction)

@[simp] theorem Scoped.map_part_outside {α : Type} (parts : List α) :
    (outside parts).map (·.part) = parts := by
  rw [outside, List.map_map]
  exact List.map_id parts

theorem Cte.map_part_queries (declared : List String) (ctes : List Cte) :
    (queries declared ctes).map (·.part) = ctes.map (·.query) := by
  induction ctes generalizing declared with
  | nil => rfl
  | cons c cs ih => rw [queries, List.map_cons, List.map_cons, ih]

theorem Cte.map_part_calls (declared : List String) (ctes : List Cte) (f : Query → RenderCall) :
    ((queries declared ctes).map (·.map f)).map (·.part) = ctes.map fun c => f c.query := by
  have hparts := congrArg (List.map f) (map_part_queries declared ctes)
  rw [List.map_map, List.map_map] at hparts
  rw [List.map_map]
  exact hparts

namespace Action

variable (d : Dialect)

def cte (c : Cte) : List Action :=
  .emit (.name c.name ++ Render.columnList c.columns ++ .word " as " ++
      Render.materialization d c.materialization) ::
    nested c.query ++
    [.emit (Render.searchClause d d.strategies.search c.search),
      .emit (Render.cycleClause d d.strategies.cycle c.name c.cycle)]

def withClause (ctes : List Cte) : List Action :=
  if ctes.isEmpty then []
  else
    .emit (.require d.capabilities.cte (.unsupported .cte)) :: text "with " ::
      when (ctes.any (·.recursive))
        [.emit (.require d.capabilities.recursiveCte (.unsupported .recursiveCte)),
          .emit (.when d.capabilities.recursiveKeyword (.word "recursive "))] ++
      separated ", " (ctes.map (cte d)) ++ [text " "]

def insertRow (columns : List String) (row : List Expr) : List Action :=
  .emit (.require (columns.isEmpty || row.length == columns.length)
      (.tupleArity columns.length row.length)) ::
    parenthesized [.call (.expressions row)]

def insertSource (columns : List String) : InsertSource → List Action
  | .defaultValues =>
    [.emit (.require d.capabilities.insertDefaultValues (.unsupported .insertDefaultValues)),
      text " default values"]
  | .values rows =>
    [.emit (.require (!rows.isEmpty) (.invalid .insertWithoutRows)),
      .emit (Render.columnList columns), text " values "] ++
      separated ", " (rows.map (insertRow columns))
  | .query s =>
    [.emit (Render.columnList columns), text " "] ++ withClause d s.ctes ++
      [.call (.nestedQuery s.query)]

/-- What is done for a statement. -/
def ofStatement : Statement → List Action
  | .select s => withClause d s.ctes ++ [.call (.query s.query)]
  | .insert s =>
    [text "insert into ", .call (.target s.target)] ++ insertSource d s.columns s.source
  | .update s =>
    [.emit (.require (!s.assignments.isEmpty) (.invalid .updateWithoutAssignments)),
      text "update ", .call (.target s.target), text " set "] ++
      separated ", " (s.assignments.map fun a =>
        [.emit (.name a.column), text "=", expression a.value]) ++
      condition " where " s.restriction
  | .delete s =>
    [text "delete from ", .call (.target s.target)] ++ condition " where " s.restriction

theorem outputs_withClause (s : Session) (ctes : List Cte) :
    outputs s (withClause s.dialect ctes) = Render.withClause s.dialect ctes := by
  have hcte : outputs s ∘ cte s.dialect = Render.cte s.dialect := by
    funext c
    simp [cte, Render.cte, Output.append_assoc]
  rw [withClause, Render.withClause]
  split
  · rfl
  · cases ctes.any (·.recursive) <;>
      simp [hcte, Output.list, Output.append_assoc, Output.when]

theorem output_target (s : Session) (t : NamedTable) :
    s.output (.target t) = Render.namedTable t := by
  change Render.namedTable t ++ .empty = _
  rw [Output.append_empty]

theorem outputs_insertRow (s : Session) (columns : List String) (row : List Expr) :
    outputs s (insertRow columns row) = Render.insertRow s.dialect columns row := by
  rw [insertRow, outputs_cons, outputs_parenthesized]
  simp [Render.insertRow, Session.output]

theorem outputs_ofStatement (lock : LockOptions) (st : Statement) :
    outputs (.start d lock) (ofStatement d st) = Render.statement d lock st := by
  have hwith (ctes : List Cte) : outputs (.start d lock) (withClause d ctes) =
      Render.withClause d ctes := outputs_withClause (.start d lock) ctes
  have hwhere (p : Option Predicate) : outputs (.start d lock) (condition " where " p) =
      Render.whereClause d p := outputs_condition (s := .start d lock) " where " p
  cases st with
  | select s =>
      rw [ofStatement, outputs_append, hwith, outputs_cons, outputs_nil, Output.append_empty]
      rfl
  | insert s =>
      obtain ⟨target, columns, source⟩ := s
      cases source with
      | defaultValues =>
          simp [ofStatement, insertSource, Render.statement, Render.insert, Render.insertSource,
            output_target, Output.append_assoc]
      | values rows =>
          have hrows : outputs (.start d lock) ∘ insertRow columns = Render.insertRow d columns :=
            funext (outputs_insertRow (.start d lock) columns)
          simp [ofStatement, insertSource, Render.statement, Render.insert, Render.insertSource,
            Render.insertRows, output_target, hrows, Output.list, Output.append_assoc]
      | query s =>
          have hquery : (Session.start d lock).output (.nestedQuery s.query) =
            (Render.query d none s.query).output := rfl
          simp [ofStatement, insertSource, Render.statement, Render.insert, Render.insertSource,
            Render.select, output_target, hwith, hquery, Output.append_assoc]
  | update s =>
      have hassignments : (outputs (.start d lock) ∘ fun a : Assignment =>
          [.emit (.name a.column), text "=", expression a.value]) = Render.assignment d := by
        funext a
        simp [Render.assignment, Session.start, Output.append_assoc]
      simp [ofStatement, Render.statement, Render.update, output_target, hwhere, hassignments,
        Output.list, Output.append_assoc]
  | delete s =>
      simp [ofStatement, Render.statement, Render.delete, output_target, hwhere,
        Output.append_assoc]

section

variable {d} {s : Session}

@[simp] theorem callsAll_append (as bs : List Action) :
    callsAll s (as ++ bs) = callsAll s as ++ callsAll s bs := by
  induction as with
  | nil => rfl
  | cons a as ih => rw [List.cons_append, callsAll, callsAll, ih, List.append_assoc]

@[simp] theorem callsAll_separated (separator : String) (rows : List (List Action)) :
    callsAll s (separated separator rows) = rows.flatMap (callsAll s) := by
  fun_induction separated separator rows with
  | case1 => rfl
  | case2 as => simp
  | case3 as bs rest ih => simp [callsAll, calls, text, ih]

@[simp] theorem callsAll_parenthesized (as : List Action) :
    callsAll s (parenthesized as) = callsAll s as := by
  simp [parenthesized, callsAll, calls, text]

@[simp] theorem callsAll_when_emit (condition : Bool) (o p : Output) :
    callsAll s (when condition [.emit o, .emit p]) = [] := by
  cases condition <;> rfl

theorem callsAll_rows {α : Type} (separator : String) {row : α → List Action}
    {call : α → RenderCall} (h : ∀ x, callsAll s (row x) = [(s, call x)]) (l : List α) :
    callsAll s (separated separator (l.map row)) = (l.map call).map (s, ·) := by
  have hcalls : (fun x => callsAll s (row x)) = fun x => [(s, call x)] := funext h
  rw [callsAll_separated, List.flatMap_map, hcalls, List.map_map]
  exact List.flatMap_pure_eq_map _ l

theorem callsAll_withClause (ctes : List Cte) :
    callsAll s (withClause d ctes) = (ctes.map fun c => .nestedQuery c.query).map (s, ·) := by
  have hcte (c : Cte) : callsAll s (cte d c) = [(s, .nestedQuery c.query)] := by
    simp [cte, nested, callsAll, calls]
  have hctes := callsAll_rows ", " hcte ctes
  rw [withClause]
  split
  · simp_all [callsAll]
  · simpa [-callsAll_separated, callsAll, calls, text] using hctes

theorem callsAll_condition (keyword : String) (p : Option Predicate) :
    callsAll s (condition keyword p) = (RenderCall.restriction p).map (s, ·) := by
  cases p with
  | none => rfl
  | some p =>
      rw [condition, RenderCall.restriction]
      split <;> rfl

theorem callsAll_insertSource (columns : List String) (source : InsertSource) :
    callsAll s (insertSource d columns source) =
      match source with
      | .values rows => (rows.map .expressions).map (s, ·)
      | .query q => ((q.queries.map (·.map .nestedQuery)).map (·.part)).map (s, ·)
      | .defaultValues => [] := by
  cases source with
  | defaultValues => rfl
  | values rows =>
      have hrow (row : List Expr) :
          callsAll s (insertRow columns row) = [(s, .expressions row)] := by
        simp [insertRow, callsAll, calls]
      exact callsAll_rows _ hrow rows
  | query q =>
      dsimp only
      rw [insertSource, callsAll_append, callsAll_append, callsAll_withClause,
        SelectStatement.queries, List.map_append, List.map_append, Cte.map_part_calls,
        List.map_append]
      rfl

theorem callsAll_ofStatement (st : Statement) :
    callsAll s (ofStatement d st) = (st.calls.map (·.part)).map (s, ·) := by
  cases st with
  | select q =>
      rw [ofStatement, callsAll_append, callsAll_withClause, Statement.calls, List.map_append,
        Cte.map_part_calls, List.map_append]
      rfl
  | insert i =>
      obtain ⟨target, columns, source⟩ := i
      rw [ofStatement, callsAll_append, callsAll_insertSource, Statement.calls, List.map_append,
        List.map_append]
      cases source <;> simp [callsAll, calls, text]
  | update u =>
      have hrow (a : Assignment) : callsAll s [.emit (.name a.column), text "=", expression a.value] =
          [(s, .expression a.value)] := rfl
      have hassignments := callsAll_rows ", " hrow u.assignments
      rw [ofStatement, callsAll_append, callsAll_append, hassignments, callsAll_condition,
        Statement.calls, Scoped.map_part_outside, List.map_append, List.map_cons]
      rfl
  | delete q =>
      rw [ofStatement, callsAll_append, callsAll_condition, Statement.calls,
        Scoped.map_part_outside, List.map_cons]
      rfl

theorem tableless_columnList (columns : List String) : (Render.columnList columns).Tableless := by
  rw [Render.columnList]
  split
  · exact .empty
  · exact (Output.Tableless.word " ").append (Output.Tableless.nameList columns).parenthesized

theorem tableless_materialization (m : CteMaterialization) :
    (Render.materialization d m).Tableless := by
  rw [Render.materialization.eq_def]
  split
  · cases m <;> simp
  · simp

theorem tableless_withClause (ctes : List Cte) : AllTableless (withClause d ctes) := by
  have hcte (c : Cte) : AllTableless (cte d c) := by
    have hname := (((Output.Tableless.name c.name).append
      (tableless_columnList c.columns)).append (.word " as ")).append
        (tableless_materialization (d := d) c.materialization)
    simp [cte, hname, Render.tableless_searchClause, Render.tableless_cycleClause]
  have hkeyword := Output.Tableless.when d.capabilities.recursiveKeyword
    (Output.Tableless.word "recursive ")
  rw [withClause]
  split
  · trivial
  · simp [hcte, hkeyword]

theorem tableless_ofStatement (st : Statement) : AllTableless (ofStatement d st) := by
  cases st with
  | select q => simp [ofStatement, tableless_withClause]
  | insert i =>
      obtain ⟨target, columns, source⟩ := i
      have hcolumns := tableless_columnList columns
      cases source with
      | defaultValues => simp [ofStatement, insertSource]
      | values rows => simp [ofStatement, insertSource, insertRow, hcolumns]
      | query q => simp [ofStatement, insertSource, tableless_withClause, hcolumns]
  | update u => simp [ofStatement, tableless_condition]
  | delete q => simp [ofStatement, tableless_condition]

end

end Action

namespace Translation

theorem mem_affectedTables {pieces : List Piece} {n : String} :
    n ∈ affectedTables pieces ↔ .table n ∈ pieces := by
  have hfold (names sorted : List String) :
      n ∈ names.foldl (fun ns m => insertName m ns) sorted ↔ n ∈ names ∨ n ∈ sorted := by
    induction names generalizing sorted with
    | nil => simp
    | cons m names ih => simp [ih, mem_insertName, or_left_comm, or_assoc]
  have htable (p : Piece) : p.table? = some n ↔ p = .table n := by
    cases p <;> simp [Piece.table?]
  rw [affectedTables, sortNames, hfold, List.mem_filterMap]
  simp [htable]

end Translation

section

variable {d : Dialect} {lock : LockOptions} {statement : Statement} {t : TranslatedSql}
  {n : String}

theorem Statement.ends_of_mem_calls (h : translateWithLock d statement lock = .ok t)
    {x : Scoped RenderCall} (hx : x ∈ statement.calls) :
    ((Session.start d lock).output x.part).failure = none := by
  obtain ⟨hok, -⟩ := Locking.translate_ok.1 h
  rw [← Action.outputs_ofStatement] at hok
  have hends := (Action.allCalls_iff_forall _ _).1 (Action.failure_allCalls hok)
  refine hends (.start d lock, x.part) ?_
  rw [Action.callsAll_ofStatement]
  exact List.mem_map_of_mem (List.mem_map_of_mem hx)

/-- What is reported are the tables that the calls of a statement name. -/
theorem Statement.mem_affectedTables (h : translateWithLock d statement lock = .ok t) :
    n ∈ t.affectedTables ↔
      ∃ x ∈ statement.calls, (Session.start d lock).Names x.part n := by
  obtain ⟨hok, rfl⟩ := Locking.translate_ok.1 h
  rw [← Action.outputs_ofStatement] at hok
  change n ∈ Translation.affectedTables _ ↔ _
  rw [Translation.mem_affectedTables, ← Action.outputs_ofStatement,
    Action.table_mem_outputs (Action.tableless_ofStatement statement) hok,
    Action.callsAll_ofStatement]
  simp only [List.map_map, List.mem_map, Function.comp_apply, exists_exists_and_eq_and]
  exact exists_congr fun x => and_congr_right fun hx =>
    Session.table_mem_output (ends_of_mem_calls h hx)

theorem RenderCall.optionReferences_eq (p : Option Predicate) (s : Session) :
    Predicate.optionReferences p = (restriction p).flatMap (·.references s) := by
  cases p with
  | none => rfl
  | some p =>
      rw [restriction]
      split
      · rename_i hempty
        rw [Predicate.optionReferences, Predicate.references_of_isEmpty hempty]
        rfl
      · simp [Predicate.optionReferences]

theorem Scoped.flatMap_outside {calls : List RenderCall} (s : Session) :
    (outside calls).flatMap (·.each (·.references s)) =
      outside (calls.flatMap (·.references s)) := by
  simp [outside, each, List.flatMap_map, List.map_flatMap]

/-- The tables that are named in a statement are those that are named in what its calls render. -/
theorem Statement.references_eq (statement : Statement) (s : Session) :
    statement.references = statement.calls.flatMap (·.each (·.references s)) := by
  have hqueries (qs : List (Scoped Query)) :
      (qs.map (·.map RenderCall.nestedQuery)).flatMap (·.each (·.references s)) =
        qs.flatMap (·.each Query.references) := by
    rw [List.flatMap_map]
    rfl
  cases statement with
  | select q =>
      rw [references, calls, List.flatMap_append, hqueries, SelectStatement.queries,
        List.flatMap_append]
      rfl
  | insert i =>
      obtain ⟨target, columns, source⟩ := i
      rw [references, calls, List.flatMap_append, Scoped.flatMap_outside]
      cases source with
      | defaultValues => rfl
      | values rows =>
          dsimp only
          rw [Scoped.flatMap_outside, List.flatMap_map]
          rfl
      | query q =>
          dsimp only
          rw [hqueries]
          rfl
  | update u =>
      rw [references, calls, Scoped.flatMap_outside, List.flatMap_append, List.flatMap_cons,
        ← RenderCall.optionReferences_eq, List.flatMap_map]
      rfl
  | delete q =>
      rw [references, calls, Scoped.flatMap_outside, List.flatMap_cons,
        ← RenderCall.optionReferences_eq]
      rfl

theorem Statement.mem_references {statement : Statement} {r : Scoped NamedTable} (s : Session) :
    r ∈ statement.references ↔
      ∃ x ∈ statement.calls, r.visible = x.visible ∧ r.part ∈ x.part.references s := by
  obtain ⟨visible, part⟩ := r
  rw [references_eq statement s]
  simp [Scoped.each, eq_comm, and_comm]

/-- With a dialect that keeps all parts, each table that is named in a statement is reported, and
nothing else. -/
theorem Statement.mem_affectedTables_iff (hkeeps : d.KeepsParts)
    (h : translateWithLock d statement lock = .ok t) :
    n ∈ t.affectedTables ↔ ∃ r ∈ statement.references, r.part.name = n := by
  rw [mem_affectedTables h]
  constructor
  · rintro ⟨x, hx, b, u, hreach, hb, rfl⟩
    have hu := Session.mem_references_of_reaches hreach (ends_of_mem_calls h hx) hb
    exact ⟨⟨x.visible, u⟩, (mem_references (.start d lock)).2 ⟨x, hx, rfl, hu⟩, rfl⟩
  · rintro ⟨r, hr, rfl⟩
    obtain ⟨x, hx, -, hmem⟩ := (mem_references (.start d lock)).1 hr
    obtain ⟨b, hreach, hb⟩ :=
      Session.reaches_of_mem_references hkeeps (ends_of_mem_calls h hx) hmem
    exact ⟨x, hx, b, r.part, hreach, hb, rfl⟩

theorem Dialect.keepsParts_generic : generic.KeepsParts := ⟨rfl, rfl, rfl, nofun⟩

theorem Dialect.keepsParts_sqlite : sqlite.KeepsParts := ⟨rfl, rfl, rfl, nofun⟩

/-- The generic dialect and SQLite report the table that a statement changes and those of its
queries at any depth, and nothing else. -/
theorem Statement.affectedTables_complete (hd : d = .generic ∨ d = .sqlite)
    (h : translateWithLock d statement lock = .ok t) :
    n ∈ t.affectedTables ↔ ∃ r ∈ statement.references, r.part.name = n := by
  obtain rfl | rfl := hd
  · exact mem_affectedTables_iff Dialect.keepsParts_generic h
  · exact mem_affectedTables_iff Dialect.keepsParts_sqlite h

/-- The target, the table that is read and the one below its condition. -/
theorem Statement.affectedTables_complete_insert :
    let table (name : String) : TableGroup := ⟨.named ⟨none, name⟩, none, []⟩
    let ids (name : String) : QuerySpec :=
      (QuerySpec.empty.select (.column none "id") none).addRoot (table name)
    let archived : SelectStatement :=
      ⟨[], .spec ((ids "person").restrict (.existsIn (.spec (ids "account"))))⟩
    let insert : Statement := .insert ⟨⟨none, "archive"⟩, ["id"], .query archived⟩
    ∃ t, translateWithLock .sqlite insert .unlocked = .ok t ∧
      ∀ n, n ∈ t.affectedTables ↔ n = "archive" ∨ n = "person" ∨ n = "account" := by
  intro table ids archived insert
  have htranslate : translateWithLock .sqlite insert .unlocked = .ok _ :=
    Locking.translate_ok.2 ⟨by decide, rfl⟩
  have hnames : insert.references.map (·.part.name) = ["archive", "person", "account"] := by
    decide +kernel
  refine ⟨_, htranslate, fun n => (affectedTables_complete (.inr rfl) htranslate).trans ?_⟩
  rw [← List.mem_map (f := fun r : Scoped NamedTable => r.part.name), hnames]
  simp

/-- Names that stand only for common table expressions are reported as well: with every dialect
where one of them is rendered, and with a dialect that keeps all parts wherever one stands. -/
theorem Statement.mem_affectedTables_of_cte (h : translateWithLock d statement lock = .ok t)
    (hcte : ∀ r ∈ statement.references, r.part.name = n → r.IsCte) :
    (n ∈ t.affectedTables ↔ ∃ x ∈ statement.calls, n ∈ x.visible ∧
      ∃ b, (Session.start d lock).Reaches x.part b ∧ b.named? = some ⟨none, n⟩) ∧
    (d.KeepsParts → (n ∈ t.affectedTables ↔
      ∃ r ∈ statement.references, r.part = ⟨none, n⟩ ∧ n ∈ r.visible)) := by
  refine ⟨?_, fun hkeeps => ?_⟩
  · rw [mem_affectedTables h]
    constructor
    · rintro ⟨x, hx, b, ⟨schema, name⟩, hreach, hb, rfl⟩
      have hu := Session.mem_references_of_reaches hreach (ends_of_mem_calls h hx) hb
      obtain ⟨rfl, hvisible⟩ := hcte ⟨x.visible, ⟨schema, name⟩⟩
        ((mem_references (.start d lock)).2 ⟨x, hx, rfl, hu⟩) rfl
      exact ⟨x, hx, hvisible, b, hreach, hb⟩
    · rintro ⟨x, hx, -, b, hreach, hb⟩
      exact ⟨x, hx, b, _, hreach, hb, rfl⟩
  · rw [mem_affectedTables_iff hkeeps h]
    constructor
    · rintro ⟨⟨visible, schema, name⟩, hr, rfl⟩
      obtain ⟨rfl, hvisible⟩ := hcte _ hr rfl
      exact ⟨_, hr, rfl, hvisible⟩
    · rintro ⟨r, hr, hpart, -⟩
      exact ⟨r, hr, congrArg NamedTable.name hpart⟩

/-- A query that reads the table `node` under another name reports both names. -/
theorem Statement.mem_affectedTables_of_cte_tree :
    let ids (name : String) : Query :=
      .spec ((QuerySpec.empty.select (.column none "id") none).addRoot
        ⟨.named ⟨none, name⟩, none, []⟩)
    let tree : Cte := ⟨"tree", [], ids "node", false, none, none, .undefined⟩
    let statement : Statement := .select ⟨[tree], ids "tree"⟩
    ∃ t, translateWithLock .generic statement .unlocked = .ok t ∧
      (∀ r ∈ statement.references, r.part.name = "tree" → r.IsCte) ∧
      "tree" ∈ t.affectedTables := by
  intro ids tree statement
  have htranslate : translateWithLock .generic statement .unlocked = .ok _ :=
    Locking.translate_ok.2 ⟨by decide, rfl⟩
  have hreferences : statement.references =
      [⟨[], ⟨none, "node"⟩⟩, ⟨["tree"], ⟨none, "tree"⟩⟩] := rfl
  have hcte : ∀ r ∈ statement.references, r.part.name = "tree" → r.IsCte := by
    simp [hreferences, Scoped.IsCte]
  refine ⟨_, htranslate, hcte, ?_⟩
  rw [(mem_affectedTables_of_cte htranslate hcte).2 Dialect.keepsParts_generic]
  simp [hreferences]

end

end DialectSql
