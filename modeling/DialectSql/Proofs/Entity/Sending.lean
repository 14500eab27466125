import DialectSql.Proofs.Entity.History

namespace DialectSql

namespace TableMapping

variable (t : TableMapping) (style : PlaceholderStyle) (v : EntityValues)

/-- The insert of an entity's row; its keys are bound to be set, or as an update binds them. -/
def insertion (keyUsage : ParameterUsage) : SentStatement :=
  ⟨(t.insertSql style keyUsage).sql, v.id ++ t.columns.map (v.value t.name)⟩

def change : SentStatement := ⟨(t.updateSql style).sql, t.columns.map (v.value t.name) ++ v.id⟩

def removal : SentStatement := ⟨(t.deleteSql style).sql, v.id⟩

/-- The statements for a table in their order. The last one of an optional table's update is left out
if the first one touched a row. -/
def statements (a : ValuesAnalysis) : MutationType → List SentStatement
  | .insert => [t.insertion style v .set]
  | .update =>
    if t.optional then
      if ValuesAnalysis.hasNonNullValue v t then
        (if a.mayHaveRow t.name then [t.change style v] else []) ++ [t.insertion style v .restrict]
      else if a.mayHaveRow t.name then [t.removal style v] else []
    else [t.change style v]
  | .delete => [t.removal style v]

end TableMapping

namespace Connection

/-- Sends a statement with its values and verifies its row count. -/
def send (c : Connection) (s : SentStatement) (e : Expectation) (table : String) :
    Connection × Except MutationError Unit :=
  match c.execute s.sql s.values with
  | (c, .error error) => (c, .error error)
  | (c, .ok count) => (c, e.verify table count)

/-- Without a row that the update touched, the row is inserted. -/
def sendUpsert (c : Connection) (style : PlaceholderStyle) (v : EntityValues) (t : TableMapping) :
    Connection × Except MutationError Unit :=
  match c.execute (t.change style v).sql (t.change style v).values with
  | (c, .error error) => (c, .error error)
  | (c, .ok 0) => c.send (t.insertion style v .restrict) (some 1) t.name
  | (c, .ok _) => (c, .ok ())

/-- What a mutation does for a table, said with the values of the entity. -/
def sendTable (c : Connection) (style : PlaceholderStyle) (v : EntityValues) (a : ValuesAnalysis)
    (mutation : MutationType) (t : TableMapping) : Connection × Except MutationError Unit :=
  match mutation with
  | .insert => c.send (t.insertion style v .set) (some 1) t.name
  | .update =>
    if t.optional then
      if ValuesAnalysis.hasNonNullValue v t then
        if a.mayHaveRow t.name then c.sendUpsert style v t
        else c.send (t.insertion style v .restrict) (some 1) t.name
      else if a.mayHaveRow t.name then c.send (t.removal style v) none t.name else (c, .ok ())
    else c.send (t.change style v) (some 1) t.name
  | .delete => c.send (t.removal style v) (if t.optional then none else some 1) t.name

/-- One table after the other, up to the statement that fails. -/
def sendTables (style : PlaceholderStyle) (v : EntityValues) (a : ValuesAnalysis)
    (mutation : MutationType) :
    List TableMapping → Connection → Connection × Except MutationError Unit
  | [], c => (c, .ok ())
  | t :: ts, c =>
    match c.sendTable style v a mutation t with
    | (c, .error error) => (c, .error error)
    | (c, .ok ()) => sendTables style v a mutation ts c

end Connection

namespace Running

variable {r : Running} {s : TranslatedSql} {values : List SqlValue}

theorem run_of_values (h : r.bindings.slotValues s.parameters = .ok values) :
    onConnection (r.run s) = r.connection.execute s.sql values := by
  rw [run, h]
  rfl

end Running

open Running

theorem PreparedOperation.perform_of_values {op : PreparedOperation} {r : Running}
    {values : List SqlValue} (h : r.bindings.slotValues op.statement.parameters = .ok values) :
    onConnection (op.perform r) =
      r.connection.send ⟨op.statement.sql, values⟩ op.expectation op.table.name := by
  rw [perform, Connection.send, ← run_of_values h]
  obtain ⟨r', e | count⟩ := r.run op.statement <;> rfl

namespace OptionalUpdate

variable {op : OptionalUpdate} {r : Running} {values : List SqlValue}

theorem remove_of_values (h : r.bindings.slotValues op.deletion.parameters = .ok values) :
    onConnection (op.remove true r) =
      r.connection.send ⟨op.deletion.sql, values⟩ none op.table.name := by
  rw [remove, if_pos rfl, Connection.send, ← run_of_values h]
  obtain ⟨r', e | count⟩ := r.run op.deletion <;> rfl

theorem insert_of_values (h : r.bindings.slotValues op.insertion.parameters = .ok values) :
    onConnection (op.upsert false r) =
      r.connection.send ⟨op.insertion.sql, values⟩ (some 1) op.table.name := by
  rw [upsert, Connection.send, ← run_of_values h]
  simp only [Bool.false_eq_true, if_false]
  obtain ⟨r', e | count⟩ := r.run op.insertion <;> rfl

end OptionalUpdate

namespace TableMapping

variable {t : TableMapping} {style : PlaceholderStyle} {v : EntityValues} {a : ValuesAnalysis}
  {r : Running} {mutation : MutationType}

theorem upsert_of_bound (hb : Coordinator.Bound .update v r.bindings t)
    (deletion : TranslatedSql) :
    onConnection (OptionalUpdate.upsert
        ⟨t, deletion, t.updateSql style, t.insertSql style .restrict⟩ true r) =
      r.connection.sendUpsert style v t := by
  have hvalues : r.bindings.slotValues (t.insertSql style .restrict).parameters = _ :=
    hb.slotValues_insertSql style (by decide)
  have hbindings := bindings_run r (t.updateSql style)
  rw [OptionalUpdate.upsert_true, Connection.sendUpsert, change,
    ← run_of_values (hb.slotValues_updateSql style)]
  cases hrun : r.run (t.updateSql style) with
  | mk r' result =>
      rw [hrun] at hbindings
      rcases result with e | _ | count
      · rfl
      -- the update has left the values bound, so that the insert takes them
      · rw [← hbindings] at hvalues
        exact @OptionalUpdate.insert_of_values ⟨t, deletion, _, _⟩ r' _ hvalues
      · rfl

/-- With its values bound an operation sends just what the values of the entity say. -/
theorem perform_of_bound (hb : Coordinator.Bound mutation v r.bindings t) :
    onConnection ((t.operation style mutation).perform a r) =
      r.connection.sendTable style v a mutation t := by
  cases mutation with
  | insert => exact PreparedOperation.perform_of_values (hb.slotValues_insertSql style (by decide))
  | delete => exact PreparedOperation.perform_of_values (hb.slotValues_deleteSql style (by decide))
  | update =>
      rw [operation, updateOperation, Connection.sendTable]
      by_cases hoptional : t.optional = true
      · rw [if_pos hoptional, if_pos hoptional]
        change onConnection (OptionalUpdate.perform _ a r) = _
        rw [OptionalUpdate.onConnection_perform, OptionalUpdate.allNull_eq _ hb]
        dsimp only
        cases ValuesAnalysis.hasNonNullValue v t with
        | true =>
            cases a.mayHaveRow t.name with
            | true => exact upsert_of_bound hb _
            | false =>
                exact OptionalUpdate.insert_of_values (hb.slotValues_insertSql style (by decide))
        | false =>
            cases a.mayHaveRow t.name with
            | true =>
                exact OptionalUpdate.remove_of_values (hb.slotValues_deleteSql style (by decide))
            | false => rfl
      · rw [if_neg hoptional, if_neg hoptional]
        exact PreparedOperation.perform_of_values (hb.slotValues_updateSql style)

end TableMapping

/-- The values that are bound for a table serve all its statements, whatever was run before for other
tables. -/
theorem Plan.performAll_of_bound {mutation : MutationType} {v : EntityValues} {a : ValuesAnalysis}
    {includes : TableMapping → Bool} {style : PlaceholderStyle} {ts : List TableMapping} {r : Running}
    (hnames : (ts.map (·.name)).Nodup) (hb : ∀ t ∈ ts, Coordinator.Bound mutation v r.bindings t) :
    onConnection (performAll a includes (ts.map (·.operation style mutation)) r) =
      Connection.sendTables style v a mutation (ts.filter includes) r.connection := by
  induction ts generalizing r with
  | nil => rfl
  | cons t ts ih =>
      obtain ⟨hnot, hnames⟩ := List.nodup_cons.1 hnames
      rw [List.forall_mem_cons] at hb
      have hrest {r' : Running} (h : r.Leads r' t.name) :
          ∀ s ∈ ts, Coordinator.Bound mutation v r'.bindings s := fun s hs =>
        (hb.2 s hs).congr fun column usage => h.bindings s.name column usage fun heq =>
          hnot (List.mem_map.2 ⟨s, hs, heq⟩)
      have hstep : onConnection ((t.operation style mutation).perform a r) =
          r.connection.sendTable style v a mutation t := TableMapping.perform_of_bound hb.1
      have hleads := (t.operation style mutation).leads_perform a r
      rw [List.map_cons, performAll]
      rw [t.table_operation] at hleads ⊢
      cases hincludes : includes t with
      | false =>
          rw [if_neg Bool.false_ne_true, List.filter_cons_of_neg (by simp [hincludes])]
          exact ih hnames (hrest (.release r t.name))
      | true =>
          rw [if_pos rfl, List.filter_cons_of_pos hincludes, Connection.sendTables, ← hstep]
          cases hperform : (t.operation style mutation).perform a r with
          | mk r' result =>
              rw [hperform] at hleads
              cases result with
              | error e => rfl
              | ok => exact ih hnames (hrest hleads)

/-- A statement that was sent failed, or touched other rows than expected. -/
def MutationError.isOfStatement : MutationError → Bool
  | .database | .unexpectedRowCount .. => true
  | _ => false

namespace Connection

def executeAll (c : Connection) (log : List SentStatement) : Connection :=
  log.foldl (fun c s => (c.execute s.sql s.values).1) c

/-- Some of the given statements were run, in their order, and if that failed it was for one of
them. -/
structure Sends (c : Connection) (statements : List SentStatement)
    (p : Connection × Except MutationError Unit) : Prop where
  log : ∃ log, p.1 = c.executeAll log ∧ p.1.sent = c.sent ++ log ∧ log.Sublist statements
  error : ∀ e, p.2 = .error e → e.isOfStatement = true

variable {c c' : Connection} {xs ys : List SentStatement}
  {p : Connection × Except MutationError Unit}

namespace Sends

theorem nothing (c : Connection) : c.Sends [] (c, .ok ()) :=
  ⟨⟨[], rfl, (List.append_nil _).symm, List.Sublist.refl _⟩, nofun⟩

theorem before (h : c.Sends xs p) (ys : List SentStatement) : c.Sends (xs ++ ys) p := by
  obtain ⟨log, hrun, hsent, hsublist⟩ := h.log
  exact ⟨⟨log, hrun, hsent, hsublist.trans (List.sublist_append_left xs ys)⟩, h.error⟩

theorem trans (h : c.Sends xs (c', .ok ())) (h' : c'.Sends ys p) : c.Sends (xs ++ ys) p := by
  obtain ⟨log, hrun, hsent, hsublist⟩ := h.log
  obtain ⟨log', hrun', hsent', hsublist'⟩ := h'.log
  dsimp only at hrun hsent
  refine ⟨⟨log ++ log', ?_, ?_, hsublist.append hsublist'⟩, h'.error⟩
  · rw [hrun', hrun, executeAll, executeAll, executeAll, List.foldl_append]
  · rw [hsent', hsent, List.append_assoc]

/-- What each of the statements keeps is kept. -/
theorem keep (h : c.Sends xs p) {P : Store.Database → Prop}
    (hstep : ∀ s ∈ xs, ∀ c : Connection, P c.database → P (c.execute s.sql s.values).1.database)
    (hP : P c.database) : P p.1.database := by
  obtain ⟨log, hrun, -, hsublist⟩ := h.log
  have hlog : ∀ s ∈ log, ∀ c : Connection, P c.database →
      P (c.execute s.sql s.values).1.database := fun s hs => hstep s (hsublist.subset hs)
  rw [hrun]
  clear h hrun hsublist
  induction log generalizing c with
  | nil => exact hP
  | cons s log ih =>
      rw [List.forall_mem_cons] at hlog
      exact ih (hlog.1 c hP) hlog.2

/-- What follows a statement depends on whether it failed. -/
theorem execute (c : Connection) (s : SentStatement) :
    (∃ c', c.execute s.sql s.values = (c', .error .database) ∧
      c.Sends [s] (c', .error .database)) ∨
    ∃ c' count, c.execute s.sql s.values = (c', .ok count) ∧ c.Sends [s] (c', .ok ()) := by
  have hlog : ∃ log, (c.execute s.sql s.values).1 = c.executeAll log ∧
      (c.execute s.sql s.values).1.sent = c.sent ++ log ∧ log.Sublist [s] :=
    ⟨[s], rfl, Running.sent_execute c s.sql s.values, List.Sublist.refl _⟩
  rcases c.execute_cases s.sql s.values with h | ⟨command, db, count, -, -, h⟩
  · rw [h] at hlog
    exact .inl ⟨_, h, hlog, fun _ herror => by cases herror; rfl⟩
  · rw [h] at hlog
    exact .inr ⟨_, count, h, hlog, nofun⟩

theorem send (c : Connection) (s : SentStatement) (e : Expectation) (table : String) :
    c.Sends [s] (c.send s e table) := by
  rw [Connection.send]
  rcases execute c s with ⟨c', hexecute, h⟩ | ⟨c', count, hexecute, h⟩
  · rw [hexecute]
    exact h
  · rw [hexecute]
    refine ⟨h.log, fun error herror => ?_⟩
    cases e with
    | none => cases herror
    | some expected =>
        dsimp only at herror
        rw [Expectation.verify] at herror
        split at herror
        · cases herror
        · cases herror
          rfl

theorem upsert (c : Connection) (style : PlaceholderStyle) (v : EntityValues) (t : TableMapping) :
    c.Sends [t.change style v, t.insertion style v .restrict] (c.sendUpsert style v t) := by
  rw [sendUpsert]
  rcases execute c (t.change style v) with ⟨c', hexecute, h⟩ | ⟨c', count, hexecute, h⟩
  · rw [hexecute]
    exact h.before [_]
  · rw [hexecute]
    cases count with
    | zero => exact h.trans (send c' _ _ _)
    | succ count => exact h.before [_]

theorem table (c : Connection) (style : PlaceholderStyle) (v : EntityValues) (a : ValuesAnalysis)
    (mutation : MutationType) (t : TableMapping) :
    c.Sends (t.statements style v a mutation) (c.sendTable style v a mutation t) := by
  cases mutation with
  | insert => exact send ..
  | delete => exact send ..
  | update =>
      rw [TableMapping.statements, sendTable]
      cases t.optional with
      | false => exact send ..
      | true =>
          cases ValuesAnalysis.hasNonNullValue v t <;> cases a.mayHaveRow t.name
          · exact nothing c
          · exact send ..
          · exact send ..
          · exact upsert c style v t

theorem tables (style : PlaceholderStyle) (v : EntityValues) (a : ValuesAnalysis)
    (mutation : MutationType) (ts : List TableMapping) (c : Connection) :
    c.Sends (ts.flatMap fun t => t.statements style v a mutation)
      (sendTables style v a mutation ts c) := by
  induction ts generalizing c with
  | nil => exact nothing c
  | cons t ts ih =>
      have hstep := table c style v a mutation t
      rw [List.flatMap_cons, sendTables]
      cases htable : c.sendTable style v a mutation t with
      | mk c' result =>
          rw [htable] at hstep
          cases result with
          | error e => exact hstep.before _
          | ok => exact hstep.trans (ih c')

end Sends

end Connection

namespace Coordinator

variable {m : MutationTarget}

/-- Where the identifier fits the keys of the tables, a call does what the values of the entity
say. -/
theorem mutate_of_fits (hnames : (m.tables.map (·.name)).Nodup)
    (hcolumns : ∀ t ∈ m.tables, (t.keys ++ t.columns).Nodup) {mutation : MutationType}
    {v : EntityValues} (hlength : ∀ t ∈ m.ordered mutation, t.keys.length = v.id.length)
    (c : Connection) : mutate m mutation v c =
      Connection.sendTables c.dialect.capabilities.placeholder v (.analyze m v) mutation
        ((m.ordered mutation).filter (includes mutation (.analyze m v))) c := by
  obtain ⟨b, hbind, hb⟩ := (bindings_cases hnames
    (fun t ht => TableMapping.keyed_of_nodup (hcolumns t ht)) mutation v
    c.dialect.capabilities.placeholder).1 hlength
  rw [mutate_eq, hbind, MutationGroup.operationsOf_eq]
  exact Plan.performAll_of_bound (r := ⟨b, c⟩) (names_ordered hnames mutation) hb

theorem mutate_of_misfit (hnames : (m.tables.map (·.name)).Nodup)
    (hcolumns : ∀ t ∈ m.tables, (t.keys ++ t.columns).Nodup) {mutation : MutationType}
    {v : EntityValues} (h : ∃ t ∈ m.ordered mutation, t.keys.length ≠ v.id.length)
    (c : Connection) : ∃ t ∈ m.ordered mutation, t.keys.length ≠ v.id.length ∧
      mutate m mutation v c =
        (c, .error (.illegalState (.identifierSize m.entity v.id.length t.name t.keys.length))) := by
  obtain ⟨t, ht, hlength, hbind⟩ := (bindings_cases hnames
    (fun t ht => TableMapping.keyed_of_nodup (hcolumns t ht)) mutation v
    c.dialect.capabilities.placeholder).2 h
  refine ⟨t, ht, hlength, ?_⟩
  rw [mutate_eq, hbind]

/-- A call on tables with names of their own and distinct columns sends its statements with the
values of the entity: to insert, the identifier and the values; to update, the values and the
identifier; to delete, the identifier. It fails only for what a statement does. If the identifier
does not fit the keys of a table, nothing is sent. -/
theorem values_sent (hnames : (m.tables.map (·.name)).Nodup)
    (hcolumns : ∀ t ∈ m.tables, (t.keys ++ t.columns).Nodup) (mutation : MutationType)
    (v : EntityValues) (c : Connection) :
    let style := c.dialect.capabilities.placeholder
    let a := ValuesAnalysis.analyze m v
    let ts := (m.ordered mutation).filter (includes mutation a)
    (∃ g, MutationGroup.build c.dialect m mutation = .ok g ∧
      g.operations.map (·.table) = m.ordered mutation) ∧
    ((∀ t ∈ m.ordered mutation, t.keys.length = v.id.length) →
      mutate m mutation v c = Connection.sendTables style v a mutation ts c ∧
      c.Sends (ts.flatMap fun t => t.statements style v a mutation) (mutate m mutation v c)) ∧
    ((∃ t ∈ m.ordered mutation, t.keys.length ≠ v.id.length) →
      ∃ t ∈ m.ordered mutation, t.keys.length ≠ v.id.length ∧ mutate m mutation v c =
        (c, .error (.illegalState (.identifierSize m.entity v.id.length t.name t.keys.length)))) := by
  intro style a ts
  refine ⟨⟨_, MutationGroup.build_eq c.dialect m mutation, ?_⟩, fun hlength => ?_,
    fun h => mutate_of_misfit hnames hcolumns h c⟩
  · rw [MutationGroup.operationsOf_eq]
    exact tables_map fun t => t.table_operation style mutation
  · rw [mutate_of_fits hnames hcolumns hlength c]
    exact ⟨rfl, .tables style v a mutation ts c⟩

/-- A person that is not in the database: the deletion of the details touches no row, and that of the
person should have touched one. -/
theorem values_sent_person :
    let c := Connection.start .sqlite [⟨"person", ["id", "name", "age"], ["id"], []⟩,
      ⟨"person_detail", ["person_id", "bio"], ["person_id"], []⟩]
    (personTarget.tables.map (·.name)).Nodup ∧
      (∀ t ∈ personTarget.tables, (t.keys ++ t.columns).Nodup) ∧
      (∀ t ∈ personTarget.ordered .delete, t.keys.length = ada.id.length) ∧
      (mutate personTarget .delete ada c).1.sent =
        [⟨"delete from person_detail where person_id=?", [.int 1]⟩,
          ⟨"delete from person where id=?", [.int 1]⟩] ∧
      (mutate personTarget .delete ada c).2 = .error (.unexpectedRowCount "person" 1 0) := by
  intro c
  have hlength : ∀ t ∈ personTarget.ordered .delete, t.keys.length = ada.id.length := by decide
  have hsends := ((values_sent (m := personTarget) (by decide) (by decide) .delete ada c).2.1
    hlength).1
  refine ⟨by decide, by decide, hlength, ?_⟩
  rw [hsends]
  decide +kernel

end Coordinator

end DialectSql
