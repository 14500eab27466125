import DialectSql.Proofs.Entity.Unbound

namespace DialectSql

open Store

/-- What a mutation does for a table. -/
def TableMapping.operation (t : TableMapping) (style : PlaceholderStyle) :
    MutationType → MutationOperation
  | .insert => t.insertOperation style
  | .update => t.updateOperation style
  | .delete => t.deleteOperation style

/-- The tables that a mutation goes through. -/
def MutationTarget.ordered (m : MutationTarget) : MutationType → List TableMapping
  | .insert => m.tables
  | .update => m.tables.filter fun t => !t.columns.isEmpty
  | .delete => m.tables.reverse

/-- The database after a statement, if the statement is sent. -/
def Running.states (r : Running) (s : TranslatedSql) : List Database :=
  match r.bindings.slotValues s.parameters with
  | .error _ => []
  | .ok values => [(r.connection.execute s.sql values).1.database]

def OptionalUpdate.states (op : OptionalUpdate) (a : ValuesAnalysis) (r : Running) :
    List Database :=
  if op.allNull r.bindings then if a.mayHaveRow op.table.name then r.states op.deletion else []
  else if a.mayHaveRow op.table.name then
    r.states op.update ++ match r.run op.update with
      | (r', .ok 0) => r'.states op.insertion
      | _ => []
  else r.states op.insertion

namespace MutationOperation

/-- The databases after each statement of an operation. -/
def states (op : MutationOperation) (a : ValuesAnalysis) (r : Running) : List Database :=
  match op with
  | prepared op => r.states op.statement
  | selfExecuting (.optionalUpdate op) => op.states a r
  | selfExecuting (.recording _) => []

/-- The statements that an operation may send with some values bound. -/
def statements (op : MutationOperation) (b : ValueBindings) : List TranslatedSql :=
  match op with
  | prepared op => [op.statement]
  | selfExecuting (.optionalUpdate op) =>
    if op.allNull b then [op.deletion] else [op.update, op.insertion]
  | selfExecuting (.recording _) => []

end MutationOperation

/-- The databases after each statement of some operations, up to the one that fails. -/
def Plan.states (a : ValuesAnalysis) (includes : TableMapping → Bool) :
    List MutationOperation → Running → List Database
  | [], _ => []
  | op :: ops, r =>
    if includes op.table then
      op.states a r ++ match op.perform a r with
        | (r', .ok ()) => states a includes ops r'
        | (_, .error _) => []
    else states a includes ops (r.release op.table.name)

namespace Coordinator

/-- The bindings of a call, unless its identifier does not fit the keys of a table. -/
def bindings (m : MutationTarget) (mutation : MutationType) (v : EntityValues)
    (style : PlaceholderStyle) : Except MutationError ValueBindings :=
  let operations := MutationGroup.operationsOf style m mutation
  bindTables m mutation v (operations.map (·.table))
    ((Plan.ofGroup ⟨mutation, m, operations⟩).bindings m.entity)

/-- The databases after each statement of a call. -/
def states (m : MutationTarget) (mutation : MutationType) (v : EntityValues) (c : Connection) :
    List Database :=
  match bindings m mutation v c.dialect.capabilities.placeholder with
  | .error _ => []
  | .ok b => Plan.states (.analyze m v) (includes mutation (.analyze m v))
      (MutationGroup.operationsOf c.dialect.capabilities.placeholder m mutation) ⟨b, c⟩

/-- The connection after some calls, whether they succeed or not. -/
def run (m : MutationTarget) : List (MutationType × EntityValues) → Connection → Connection
  | [], c => c
  | (mutation, v) :: calls, c => run m calls (mutate m mutation v c).1

/-- The databases after each statement of some calls. -/
def history (m : MutationTarget) : List (MutationType × EntityValues) → Connection → List Database
  | [], _ => []
  | (mutation, v) :: calls, c => states m mutation v c ++ history m calls (mutate m mutation v c).1

end Coordinator

/-- One connection comes from another by statements that leave databases one after the other. -/
inductive Connection.Replays : Connection → List Database → Connection → Prop
  | nil (c : Connection) : Replays c [] c
  | cons {c c' : Connection} {dbs : List Database} (sql : String) (values : List SqlValue)
      (h : Replays (c.execute sql values).1 dbs c') :
      Replays c ((c.execute sql values).1.database :: dbs) c'

namespace Connection.Replays

variable {c c₁ c₂ : Connection} {dbs dbs' : List Database}

theorem append (h : c.Replays dbs c₁) (h' : c₁.Replays dbs' c₂) : c.Replays (dbs ++ dbs') c₂ := by
  induction h with
  | nil c => exact h'
  | cons sql values h ih => exact .cons sql values (ih h')

/-- A connection ends with the last of the databases. -/
theorem database_mem (h : c.Replays dbs c₁) : c₁.database ∈ c.database :: dbs := by
  induction h with
  | nil c => exact List.mem_cons_self ..
  | cons sql values h ih => exact List.mem_cons_of_mem _ ih

end Connection.Replays

namespace Running

/-- What is left of a run when its bindings are forgotten. -/
def onConnection {α : Type} : Running × α → Connection × α := Prod.map (·.connection) id

variable {r : Running} {s : TranslatedSql}

theorem replays_run (r : Running) (s : TranslatedSql) :
    r.connection.Replays (r.states s) (r.run s).1.connection := by
  rw [states, run]
  cases r.bindings.slotValues s.parameters with
  | error e => exact .nil _
  | ok values => exact .cons _ _ (.nil _)

theorem eq_of_mem_states {db : Database} (h : db ∈ r.states s) :
    db = (r.run s).1.connection.database := by
  rw [states] at h
  rw [run]
  cases hvalues : r.bindings.slotValues s.parameters with
  | error e =>
      rw [hvalues] at h
      cases h
  | ok values =>
      rw [hvalues] at h
      exact List.mem_singleton.1 h

end Running

theorem PreparedOperation.connection_perform (op : PreparedOperation) (r : Running) :
    (op.perform r).1.connection = (r.run op.statement).1.connection := by
  rw [perform]
  obtain ⟨r', e | count⟩ := r.run op.statement <;> rfl

namespace OptionalUpdate

variable (op : OptionalUpdate) (a : ValuesAnalysis) (r : Running)

/-- The release of the bindings at the end of an operation is not seen on the connection. -/
theorem onConnection_perform : Running.onConnection (op.perform a r) =
    Running.onConnection (if op.allNull r.bindings then op.remove (a.mayHaveRow op.table.name) r
      else op.upsert (a.mayHaveRow op.table.name) r) := by
  rw [perform]
  dsimp only
  generalize (if op.allNull r.bindings then op.remove (a.mayHaveRow op.table.name) r
    else op.upsert (a.mayHaveRow op.table.name) r) = step
  obtain ⟨r', e | _⟩ := step <;> rfl

theorem connection_perform : (op.perform a r).1.connection =
    (if op.allNull r.bindings then op.remove (a.mayHaveRow op.table.name) r
      else op.upsert (a.mayHaveRow op.table.name) r).1.connection :=
  congrArg Prod.fst (op.onConnection_perform a r)

theorem connection_remove :
    (op.remove true r).1.connection = (r.run op.deletion).1.connection := by
  rw [remove, if_pos rfl]
  obtain ⟨r', e | count⟩ := r.run op.deletion <;> rfl

theorem connection_insertion :
    (op.upsert false r).1.connection = (r.run op.insertion).1.connection := by
  rw [upsert]
  simp only [Bool.false_eq_true, if_false]
  obtain ⟨r', e | count⟩ := r.run op.insertion <;> rfl

theorem replays_upsert : r.connection.Replays
    (r.states op.update ++ match r.run op.update with
      | (r', .ok 0) => r'.states op.insertion
      | _ => []) (op.upsert true r).1.connection := by
  have hupdate := r.replays_run op.update
  rw [upsert_true]
  cases hrun : r.run op.update with
  | mk r' result =>
      rw [hrun] at hupdate
      refine hupdate.append ?_
      rcases result with e | _ | count
      · exact .nil _
      · change r'.connection.Replays (r'.states op.insertion) (op.upsert false r').1.connection
        rw [connection_insertion]
        exact r'.replays_run op.insertion
      · exact .nil _

theorem replays_perform : r.connection.Replays (op.states a r) (op.perform a r).1.connection := by
  rw [connection_perform, states]
  cases op.allNull r.bindings with
  | true =>
      cases a.mayHaveRow op.table.name with
      | true =>
          rw [if_pos rfl, if_pos rfl, if_pos rfl, connection_remove]
          exact r.replays_run op.deletion
      | false => exact .nil _
  | false =>
      cases a.mayHaveRow op.table.name with
      | true => exact op.replays_upsert r
      | false =>
          change r.connection.Replays (r.states op.insertion) (op.upsert false r).1.connection
          rw [connection_insertion]
          exact r.replays_run op.insertion

/-- What every statement of an operation keeps holds after each of them. -/
theorem states_keep {J : Database → Prop}
    (hkeep : ∀ s ∈ MutationOperation.statements (.selfExecuting (.optionalUpdate op)) r.bindings,
      ∀ r' : Running, r'.bindings = r.bindings → J r'.connection.database →
        J (r'.run s).1.connection.database)
    (hJ : J r.connection.database) : ∀ db ∈ op.states a r, J db := by
  have hstates (s : TranslatedSql)
      (hs : s ∈ MutationOperation.statements (.selfExecuting (.optionalUpdate op)) r.bindings)
      (r' : Running) (hbindings : r'.bindings = r.bindings) (hJ : J r'.connection.database) :
      ∀ db ∈ r'.states s, J db := by
    intro db hdb
    rw [Running.eq_of_mem_states hdb]
    exact hkeep s hs r' hbindings hJ
  rw [MutationOperation.statements] at hkeep hstates
  rw [states]
  cases hnull : op.allNull r.bindings with
  | true =>
      rw [hnull] at hstates
      split
      · split
        · exact hstates op.deletion (by simp) r rfl hJ
        · exact fun db hdb => absurd hdb List.not_mem_nil
      · contradiction
  | false =>
      rw [hnull] at hkeep hstates
      have hinsertion := hstates op.insertion (by simp)
      split
      · contradiction
      split
      · refine List.forall_mem_append.2 ⟨hstates op.update (by simp) r rfl hJ, ?_⟩
        have hrun := hkeep op.update (by simp) r rfl hJ
        have hbindings := Running.bindings_run r op.update
        split
        · rename_i heq
          rw [heq] at hrun hbindings
          exact hinsertion _ hbindings hrun
        · exact fun db hdb => absurd hdb List.not_mem_nil
      · exact hinsertion r rfl hJ

end OptionalUpdate

namespace MutationOperation

variable {op : MutationOperation} {a : ValuesAnalysis} {r : Running}

theorem states_keep {J : Database → Prop}
    (hkeep : ∀ s ∈ op.statements r.bindings, ∀ r' : Running, r'.bindings = r.bindings →
      J r'.connection.database → J (r'.run s).1.connection.database)
    (hJ : J r.connection.database) : ∀ db ∈ op.states a r, J db := by
  cases op with
  | prepared op =>
      intro db hdb
      rw [Running.eq_of_mem_states hdb]
      exact hkeep op.statement (List.mem_singleton_self _) r rfl hJ
  | selfExecuting op =>
      cases op with
      | optionalUpdate op => exact op.states_keep a r hkeep hJ
      | recording op => exact fun db hdb => absurd hdb List.not_mem_nil

/-- An operation changes the connection by its statements alone. -/
def Replayed (op : MutationOperation) : Prop :=
  ∀ (a : ValuesAnalysis) (r : Running),
    r.connection.Replays (op.states a r) (op.perform a r).1.connection

theorem Replayed.keep (h : op.Replayed) {J : Database → Prop} (hJ : J r.connection.database)
    (hstates : ∀ db ∈ op.states a r, J db) : J (op.perform a r).1.connection.database :=
  List.forall_mem_cons.2 ⟨hJ, hstates⟩ _ (h a r).database_mem

theorem replayed_prepared (op : PreparedOperation) : (prepared op).Replayed := by
  intro a r
  change r.connection.Replays (r.states op.statement) (op.perform r).1.connection
  rw [op.connection_perform]
  exact r.replays_run op.statement

end MutationOperation

theorem MutationGroup.operationsOf_eq (style : PlaceholderStyle) (m : MutationTarget)
    (mutation : MutationType) : operationsOf style m mutation =
      (m.ordered mutation).map (·.operation style mutation) := by
  cases mutation <;> rfl

namespace MutationTarget

variable {m : MutationTarget} {t : TableMapping} {mutation : MutationType}

theorem mem_of_mem_ordered (ht : t ∈ m.ordered mutation) : t ∈ m.tables := by
  cases mutation with
  | insert => exact ht
  | update => exact List.mem_of_mem_filter ht
  | delete => exact List.mem_reverse.1 ht

theorem columns_ne_nil (ht : t ∈ m.ordered .update) : t.columns ≠ [] := by
  simpa using List.of_mem_filter ht

end MutationTarget

namespace TableMapping

variable (t : TableMapping) (style : PlaceholderStyle) (mutation : MutationType)

theorem table_operation : (t.operation style mutation).table = t := by
  cases mutation with
  | insert => rfl
  | update => exact t.table_updateOperation style
  | delete => rfl

theorem described_operation : (t.operation style mutation).Described mutation := by
  cases mutation with
  | insert => exact t.described_insertOperation style
  | update => exact t.described_updateOperation style
  | delete => exact t.described_deleteOperation style

theorem replayed_operation : (t.operation style mutation).Replayed := by
  cases mutation with
  | insert => exact MutationOperation.replayed_prepared _
  | update =>
      rw [operation, updateOperation]
      split
      · exact fun a r => OptionalUpdate.replays_perform _ a r
      · exact MutationOperation.replayed_prepared _
  | delete => exact MutationOperation.replayed_prepared _

end TableMapping

theorem Plan.replays_performAll {a : ValuesAnalysis} {includes : TableMapping → Bool}
    {ops : List MutationOperation} (hops : ∀ op ∈ ops, op.Replayed) (r : Running) :
    r.connection.Replays (states a includes ops r) (performAll a includes ops r).1.connection := by
  induction ops generalizing r with
  | nil => exact .nil _
  | cons op ops ih =>
      obtain ⟨hop, hops⟩ := List.forall_mem_cons.1 hops
      rw [states, performAll]
      split
      · have hstep := hop a r
        cases hperform : op.perform a r with
        | mk r' result =>
            rw [hperform] at hstep
            refine hstep.append ?_
            cases result with
            | error e => exact .nil _
            | ok => exact ih hops r'
      · exact ih hops (r.release op.table.name)

namespace Coordinator

variable {m : MutationTarget} {mutation : MutationType} {v : EntityValues} {c : Connection}

theorem names_ordered (h : (m.tables.map (·.name)).Nodup) (mutation : MutationType) :
    ((m.ordered mutation).map (·.name)).Nodup := by
  have hnames := @MutationGroup.nodup_operationsOf m mutation .question h
  rwa [MutationGroup.operationsOf_eq, names_map fun t => t.table_operation .question mutation]
    at hnames

/-- Where tables have names of their own and distinct columns, a call binds all its values, if the
identifier fits the keys of each table, and none otherwise. -/
theorem bindings_cases (hnames : (m.tables.map (·.name)).Nodup) (hkeyed : ∀ t ∈ m.tables, t.Keyed)
    (mutation : MutationType) (v : EntityValues) (style : PlaceholderStyle) :
    ((∀ t ∈ m.ordered mutation, t.keys.length = v.id.length) →
      ∃ b, bindings m mutation v style = .ok b ∧ ∀ t ∈ m.ordered mutation, Bound mutation v b t) ∧
    ((∃ t ∈ m.ordered mutation, t.keys.length ≠ v.id.length) →
      ∃ t ∈ m.ordered mutation, t.keys.length ≠ v.id.length ∧ bindings m mutation v style =
        .error (.illegalState (.identifierSize m.entity v.id.length t.name t.keys.length))) := by
  have htable (t : TableMapping) := t.table_operation style mutation
  have hordered := names_ordered hnames mutation
  have hdescribed : ∀ t ∈ m.ordered mutation,
      (t.operation style mutation).Described mutation := fun t _ =>
    t.described_operation style mutation
  have hkeys : ∀ t ∈ m.ordered mutation, t.Keyed := fun t ht =>
    hkeyed t (MutationTarget.mem_of_mem_ordered ht)
  simp only [bindings, MutationGroup.operationsOf_eq, tables_map htable]
  refine ⟨fun hlength => bindings_ok htable hordered hlength hkeys hdescribed, fun h => ?_⟩
  obtain ⟨hfaithful, hresolved⟩ := resolved_ofGroup (m := m) htable hordered hdescribed
  exact bindTables_illegal hfaithful hkeys hresolved h

/-- A call binds its values and then runs its operations, if there are any. -/
theorem mutate_eq (m : MutationTarget) (mutation : MutationType) (v : EntityValues)
    (c : Connection) : mutate m mutation v c =
      match bindings m mutation v c.dialect.capabilities.placeholder with
      | .error e => (c, .error e)
      | .ok b => Prod.map (·.connection) id
          (Plan.performAll (.analyze m v) (includes mutation (.analyze m v))
            (MutationGroup.operationsOf c.dialect.capabilities.placeholder m mutation) ⟨b, c⟩) := by
  generalize hstyle : c.dialect.capabilities.placeholder = style
  let g : MutationGroup := ⟨mutation, m, MutationGroup.operationsOf style m mutation⟩
  have hbuild : MutationGroup.build c.dialect m mutation = .ok g := by
    rw [MutationGroup.build_eq, hstyle]
  rw [mutate, hbuild]
  by_cases hempty : g.operations.isEmpty = true
  · have hnone : MutationGroup.operationsOf style m mutation = [] := List.isEmpty_iff.1 hempty
    simp only [hempty, if_true, bindings, hnone]
    rfl
  · have hbindings : bindTables m mutation v (g.operations.map (·.table))
        ((Plan.ofGroup g).bindings m.entity) = bindings m mutation v style := rfl
    simp only [hempty, Bool.false_eq_true, if_false, Executor.ofGroup, Executor.ofPlan,
      Executor.openBindings]
    rw [hbindings]
    cases bindings m mutation v style with
    | error e => rfl
    | ok b =>
        exact @Executor.execute_ofGroup g ⟨.ofGroup g, .bound, b⟩ (.analyze m v)
          (includes mutation (.analyze m v)) rfl (Nat.lt_succ_self 1) c

theorem replays_mutate (m : MutationTarget) (mutation : MutationType) (v : EntityValues)
    (c : Connection) : c.Replays (states m mutation v c) (mutate m mutation v c).1 := by
  rw [mutate_eq, states]
  cases bindings m mutation v c.dialect.capabilities.placeholder with
  | error e => exact .nil c
  | ok b =>
      refine Plan.replays_performAll (fun op hop => ?_) ⟨b, c⟩
      rw [MutationGroup.operationsOf_eq] at hop
      obtain ⟨t, -, rfl⟩ := List.mem_map.1 hop
      exact t.replayed_operation _ mutation

/-- The history of some calls is what they did to the connection, statement by statement. -/
theorem replays_history (m : MutationTarget) (calls : List (MutationType × EntityValues))
    (c : Connection) : c.Replays (history m calls c) (run m calls c) := by
  induction calls generalizing c with
  | nil => exact .nil c
  | cons call calls ih => exact (replays_mutate m call.1 call.2 c).append (ih _)

end Coordinator

end DialectSql
