import DialectSql.Proofs.Entity.Lifecycle
import DialectSql.Proofs.Entity.Operations

namespace DialectSql

namespace Running

/-- The same values are bound and the connection is the same. Which columns can be bound may
differ. -/
structure Alike (r s : Running) : Prop where
  groups : r.bindings.groups = s.bindings.groups
  connection : r.connection = s.connection

/-- Two runs of an operation come to the same. -/
structure Agree {α : Type} (p q : Running × Except MutationError α) : Prop where
  running : p.1.Alike q.1
  result : p.2 = q.2

variable {r s : Running}

namespace Alike

theorem value? (h : r.Alike s) : r.bindings.value? = s.bindings.value? := by
  funext table column usage
  rw [ValueBindings.value?, ValueBindings.value?, ValueBindings.group, ValueBindings.group, h.groups]

theorem slotValues (h : r.Alike s) (slots : List BindSlot) :
    r.bindings.slotValues slots = s.bindings.slotValues slots := by
  have hslot : r.bindings.slotValue = s.bindings.slotValue := by
    funext slot
    cases slot with
    | value v => rfl
    | column table column usage => rw [ValueBindings.slotValue, ValueBindings.slotValue, h.value?]
  rw [ValueBindings.slotValues, ValueBindings.slotValues, hslot]

theorem release (h : r.Alike s) (table : String) : (r.release table).Alike (s.release table) :=
  ⟨congrArg (List.filter fun g : String × _ => g.1 != table) h.groups, h.connection⟩

theorem run (h : r.Alike s) (t : TranslatedSql) : Agree (r.run t) (s.run t) := by
  rw [Running.run, Running.run, h.slotValues, h.connection]
  cases s.bindings.slotValues t.parameters with
  | error e => exact ⟨h, rfl⟩
  | ok values => exact ⟨⟨h.groups, rfl⟩, rfl⟩

end Alike

/-- Runs that come to the same go on in the same way. -/
theorem Agree.cases {α : Type} {p q : Running × Except MutationError α} (h : Agree p q) :
    ∃ r s result, p = (r, result) ∧ q = (s, result) ∧ r.Alike s := by
  obtain ⟨r, result⟩ := p
  obtain ⟨s, result'⟩ := q
  obtain ⟨hrs, hresult⟩ := h
  cases hresult
  exact ⟨r, s, result, rfl, rfl, hrs⟩

end Running

open Running

variable {r s : Running}

theorem PreparedOperation.agree_perform (op : PreparedOperation) (h : r.Alike s) :
    Agree (op.perform r) (op.perform s) := by
  obtain ⟨r', s', result, hr, hs, h'⟩ := (h.run op.statement).cases
  rw [perform, perform, hr, hs]
  cases result with
  | error e => exact ⟨h', rfl⟩
  | ok count => exact ⟨h'.release op.table.name, rfl⟩

namespace OptionalUpdate

theorem agree_remove (op : OptionalUpdate) (mayHaveRow : Bool) (h : r.Alike s) :
    Agree (op.remove mayHaveRow r) (op.remove mayHaveRow s) := by
  cases mayHaveRow with
  | false => exact ⟨h, rfl⟩
  | true =>
      obtain ⟨r', s', result, hr, hs, h'⟩ := (h.run op.deletion).cases
      rw [remove, remove, if_pos rfl, if_pos rfl, hr, hs]
      cases result <;> exact ⟨h', rfl⟩

theorem agree_upsert (op : OptionalUpdate) (mayHaveRow : Bool) (h : r.Alike s) :
    Agree (op.upsert mayHaveRow r) (op.upsert mayHaveRow s) := by
  have hupdate : Agree (if mayHaveRow then r.run op.update else (r, .ok 0))
      (if mayHaveRow then s.run op.update else (s, .ok 0)) := by
    cases mayHaveRow with
    | false => exact ⟨h, rfl⟩
    | true => exact h.run op.update
  obtain ⟨r₁, s₁, updated, hr, hs, h₁⟩ := hupdate.cases
  rw [upsert, upsert, hr, hs]
  cases updated with
  | error e => exact ⟨h₁, rfl⟩
  | ok count =>
      cases count with
      | succ n => exact ⟨h₁, rfl⟩
      | zero =>
          obtain ⟨r₂, s₂, inserted, hr₂, hs₂, h₂⟩ := (h₁.run op.insertion).cases
          simp only [hr₂, hs₂]
          cases inserted <;> exact ⟨h₂, rfl⟩

theorem agree_perform (op : OptionalUpdate) (a : ValuesAnalysis) (h : r.Alike s) :
    Agree (op.perform a r) (op.perform a s) := by
  have hnull : op.allNull r.bindings = op.allNull s.bindings := by
    rw [allNull, allNull, h.value?]
  have hrow : Agree
      (if op.allNull r.bindings then op.remove (a.mayHaveRow op.table.name) r
        else op.upsert (a.mayHaveRow op.table.name) r)
      (if op.allNull s.bindings then op.remove (a.mayHaveRow op.table.name) s
        else op.upsert (a.mayHaveRow op.table.name) s) := by
    rw [hnull]
    split
    · exact op.agree_remove _ h
    · exact op.agree_upsert _ h
  obtain ⟨r', s', result, hr, hs, h'⟩ := hrow.cases
  simp only [perform, hr, hs]
  cases result with
  | error e => exact ⟨h', rfl⟩
  | ok => exact ⟨h'.release op.table.name, rfl⟩

end OptionalUpdate

theorem RecordingOperation.agree_perform (op : RecordingOperation) (a : ValuesAnalysis)
    (h : r.Alike s) : Agree (op.perform a r) (op.perform a s) := by
  have hgroup : r.bindings.group op.table.name = s.bindings.group op.table.name := by
    rw [ValueBindings.group, ValueBindings.group, h.groups]
  refine ⟨⟨h.groups, ?_⟩, rfl⟩
  simp only [perform, hgroup, h.connection]

/-- What an operation does depends on the values that are bound and on the connection. -/
theorem MutationOperation.agree_perform (op : MutationOperation) (a : ValuesAnalysis)
    (h : r.Alike s) : Agree (op.perform a r) (op.perform a s) := by
  cases op with
  | prepared op => exact op.agree_perform h
  | selfExecuting op =>
      cases op with
      | optionalUpdate op => exact op.agree_perform a h
      | recording op => exact op.agree_perform a h

/-- The plan that runs one operation by itself. -/
def MutationOperation.plan : MutationOperation → Plan
  | prepared op => .singleTable op
  | selfExecuting op => .singleSelfExecuting op

theorem MutationOperation.plan_perform_included (op : MutationOperation) (a : ValuesAnalysis)
    (r : Running) {includes : TableMapping → Bool} (hincluded : includes op.table = true) :
    op.plan.perform a includes r = op.perform a r := by
  cases op <;> exact if_pos hincluded

theorem MutationOperation.plan_perform_excluded (op : MutationOperation) (a : ValuesAnalysis)
    (r : Running) {includes : TableMapping → Bool} (hexcluded : includes op.table = false) :
    (op.plan.perform a includes r).1.connection = r.connection ∧
      (op.plan.perform a includes r).2 = .ok () := by
  rw [← Bool.not_eq_true] at hexcluded
  cases op with
  | prepared op =>
      have hreleased : (Plan.singleTable op).perform a includes r =
        (r.release op.table.name, .ok ()) := if_neg hexcluded
      rw [plan, hreleased]
      exact ⟨rfl, rfl⟩
  | selfExecuting op =>
      have hkept : (Plan.singleSelfExecuting op).perform a includes r = (r, .ok ()) :=
        if_neg hexcluded
      rw [plan, hkept]
      exact ⟨rfl, rfl⟩

namespace Plan

variable {g : MutationGroup} {op : MutationOperation}

theorem ofGroup_single (hg : g.operations = [op]) : ofGroup g = op.plan := by
  rw [ofGroup, hg]
  cases op <;> rfl

/-- Under the table of the operation the same columns can be bound. -/
theorem resolve?_single (hg : g.operations = [op]) (column : String) (usage : ParameterUsage) :
    op.plan.resolve? op.table.name column usage =
      (multiTable g).resolve? op.table.name column usage := by
  have hfind : g.operation? op.table.name = some op := by
    rw [MutationGroup.operation?, hg, List.find?_cons, beq_self_eq_true]
  rw [resolve?, hfind]
  cases op with
  | prepared op => exact if_pos rfl
  | selfExecuting op => rfl

/-- An operation that is left out keeps or loses its values, which does not matter any more: it
sends nothing. -/
theorem perform_single (hg : g.operations = [op]) (a : ValuesAnalysis)
    (includes : TableMapping → Bool) (h : r.Alike s) :
    (op.plan.perform a includes r).1.connection = ((multiTable g).perform a includes s).1.connection ∧
      (op.plan.perform a includes r).2 = ((multiTable g).perform a includes s).2 := by
  have hrun := op.agree_perform a h
  have hall : (multiTable g).perform a includes s = performAll a includes [op] s := by
    rw [perform, hg]
  rw [hall, performAll]
  cases hincluded : includes op.table with
  | false =>
      have hexcluded := op.plan_perform_excluded a r hincluded
      exact ⟨hexcluded.1.trans h.connection, hexcluded.2⟩
  | true =>
      obtain ⟨r', s', result, hr, hs, h'⟩ := hrun.cases
      rw [op.plan_perform_included a r hincluded, hr, if_pos rfl, hs]
      cases result with
      | error e => exact ⟨h'.connection, rfl⟩
      | ok => exact ⟨h'.connection, rfl⟩

end Plan

namespace Executor

/-- What a caller sees of a call: its result, and the connection behind an execution. -/
structure Answer where
  result : Except MutationError Unit
  connection : Option Connection

def answer (x : Executor) : Call → Answer
  | .openBindings => ⟨x.openBindings.map fun _ => (), none⟩
  | .bind table column usage v => ⟨(x.bind table column usage v).2, none⟩
  | .execute a includes c =>
    let (_, c', result) := x.execute a includes c
    ⟨result, some c'⟩
  | .release => ⟨.ok (), none⟩

def answers (x : Executor) : List Call → List Answer
  | [] => []
  | k :: calls => x.answer k :: (x.call k).answers calls

/-- What is bound is bound under the name of one table. -/
def Call.BindsUnder (table : String) : Call → Prop
  | .bind t _ _ _ => t = table
  | _ => True

/-- The executor of one operation and the one for several tables, which runs that operation too. Up
to the execution the same values are bound. -/
structure Twins (g : MutationGroup) (op : MutationOperation) (x y : Executor) : Prop where
  single : x.plan = op.plan
  several : y.plan = .multiTable g
  state : x.state = y.state
  groups : x.state.rank < 2 → x.bindings.groups = y.bindings.groups
  resolves : x.state.rank < 2 → ∀ column usage, x.bindings.resolve? op.table.name column usage =
    y.bindings.resolve? op.table.name column usage

namespace Twins

variable {g : MutationGroup} {op : MutationOperation} {x y : Executor}

theorem start (hg : g.operations = [op]) : Twins g op (ofGroup g) (multiTable g) := by
  have hplan := Plan.ofGroup_single hg
  refine ⟨hplan, rfl, rfl, fun _ => ?_, fun _ column usage => ?_⟩
  · rw [ofGroup, ofPlan, hplan]
    cases op <;> rfl
  · rw [ofGroup, ofPlan, hplan]
    have hresolves := Plan.resolve?_single hg column usage
    cases op <;> exact hresolves

theorem of_closed (hx : x.plan = op.plan) (hy : y.plan = .multiTable g)
    (hstate : x.state = y.state) (hrank : 2 ≤ x.state.rank) : Twins g op x y :=
  ⟨hx, hy, hstate, fun hopen => absurd hopen (Nat.not_lt_of_le hrank),
    fun hopen => absurd hopen (Nat.not_lt_of_le hrank)⟩

/-- A closed executor answers by its state alone. -/
theorem closed (h : Twins g op x y) (hrank : 2 ≤ x.state.rank) (k : Call) :
    x.answer k = y.answer k ∧ Twins g op (x.call k) (y.call k) := by
  obtain ⟨plan, state, bindings⟩ := x
  obtain ⟨plan', state', bindings'⟩ := y
  obtain ⟨rfl, rfl, rfl, -, -⟩ := h
  cases state with
  | created | bound => simp [ExecutorState.rank] at hrank
  | executed | released =>
      cases k <;> exact ⟨rfl, .of_closed rfl rfl rfl (Nat.le_of_ble_eq_true rfl)⟩

theorem openBindings (h : Twins g op x y) (hrank : x.state.rank < 2) :
    x.answer .openBindings = y.answer .openBindings ∧
      Twins g op (x.call .openBindings) (y.call .openBindings) := by
  obtain ⟨plan, state, bindings⟩ := x
  obtain ⟨plan', state', bindings'⟩ := y
  obtain ⟨rfl, rfl, rfl, hgroups, hresolves⟩ := h
  cases state with
  | created | bound => exact ⟨rfl, rfl, rfl, rfl, fun _ => hgroups hrank, fun _ => hresolves hrank⟩
  | executed | released => simp [ExecutorState.rank] at hrank

theorem bind (h : Twins g op x y) (hrank : x.state.rank < 2) (column : String)
    (usage : ParameterUsage) (v : SqlValue) :
    let k := Call.bind op.table.name column usage v
    x.answer k = y.answer k ∧ Twins g op (x.call k) (y.call k) := by
  intro k
  obtain ⟨plan, state, bindings⟩ := x
  obtain ⟨plan', state', bindings'⟩ := y
  obtain ⟨rfl, rfl, rfl, hgroups, hresolves⟩ := h
  replace hgroups : bindings.groups = bindings'.groups := hgroups hrank
  replace hresolves : ∀ column usage, bindings.resolve? op.table.name column usage =
    bindings'.resolve? op.table.name column usage := hresolves hrank
  have hresolve := hresolves column usage
  have hopen : state = .created ∨ state = .bound := by
    cases state with
    | created => exact .inl rfl
    | bound => exact .inr rfl
    | executed | released => simp [ExecutorState.rank] at hrank
  cases hdescriptor : bindings'.resolve? op.table.name column usage with
  | none =>
      rw [hdescriptor] at hresolve
      rcases hopen with rfl | rfl <;>
        simp only [k, answer, call, Executor.bind, Executor.openBindings, ValueBindings.bind, hresolve,
          hdescriptor] <;>
        exact ⟨trivial, rfl, rfl, rfl, fun _ => hgroups, fun _ => hresolves⟩
  | some d =>
      rw [hdescriptor] at hresolve
      rcases hopen with rfl | rfl <;>
        simp only [k, answer, call, Executor.bind, Executor.openBindings, ValueBindings.bind, hresolve,
          hdescriptor] <;>
        exact ⟨trivial, rfl, rfl, rfl, fun _ => congrArg (ValueBindings.putGroup _ _) hgroups,
          fun _ => hresolves⟩

theorem execute (h : Twins g op x y) (hg : g.operations = [op]) (hrank : x.state.rank < 2)
    (a : ValuesAnalysis) (includes : TableMapping → Bool) (c : Connection) :
    let k := Call.execute a includes c
    x.answer k = y.answer k ∧ Twins g op (x.call k) (y.call k) := by
  intro k
  have hstate := state_execute a includes c hrank
  obtain ⟨plan, state, bindings⟩ := x
  obtain ⟨plan', state', bindings'⟩ := y
  obtain ⟨rfl, rfl, rfl, hgroups, -⟩ := h
  have halike : Running.Alike ⟨bindings, c⟩ ⟨bindings', c⟩ := ⟨hgroups hrank, rfl⟩
  obtain ⟨hconnection, hresult⟩ := Plan.perform_single hg a includes halike
  cases state with
  | created | bound =>
      refine ⟨?_, .of_closed rfl rfl rfl (Nat.le_of_ble_eq_true rfl)⟩
      simp only [k, answer, Executor.execute, hconnection, hresult]
  | executed | released => simp [ExecutorState.rank] at hrank

theorem release (h : Twins g op x y) (hrank : x.state.rank < 2) :
    x.answer .release = y.answer .release ∧ Twins g op (x.call .release) (y.call .release) := by
  obtain ⟨plan, state, bindings⟩ := x
  obtain ⟨plan', state', bindings'⟩ := y
  obtain ⟨rfl, rfl, rfl, -, -⟩ := h
  cases state with
  | created | bound => exact ⟨rfl, .of_closed rfl rfl rfl (Nat.le_of_ble_eq_true rfl)⟩
  | executed | released => simp [ExecutorState.rank] at hrank

theorem step (h : Twins g op x y) (hg : g.operations = [op]) {k : Call}
    (hk : k.BindsUnder op.table.name) :
    x.answer k = y.answer k ∧ Twins g op (x.call k) (y.call k) := by
  by_cases hrank : x.state.rank < 2
  · cases k with
    | openBindings => exact h.openBindings hrank
    | bind table column usage v =>
        obtain rfl : table = op.table.name := hk
        exact h.bind hrank column usage v
    | execute a includes c => exact h.execute hg hrank a includes c
    | release => exact h.release hrank
  · exact h.closed (Nat.le_of_not_lt hrank) k

theorem run (h : Twins g op x y) (hg : g.operations = [op]) (calls : List Call)
    (hcalls : ∀ k ∈ calls, k.BindsUnder op.table.name) :
    x.answers calls = y.answers calls ∧ Twins g op (x.after calls) (y.after calls) := by
  induction calls generalizing x y with
  | nil => exact ⟨rfl, h⟩
  | cons k calls ih =>
      rw [List.forall_mem_cons] at hcalls
      obtain ⟨hanswer, hnext⟩ := h.step hg hcalls.1
      obtain ⟨hanswers, hlast⟩ := ih hnext hcalls.2
      refine ⟨?_, hlast⟩
      rw [answers, answers, hanswer, hanswers]

end Twins

/-- A group of one operation is run by that operation alone, and a caller who binds values of its
table only sees the same as if the group were run as one of several tables: the same bindings are
taken and refused, and executions give the same results and leave the same connection. -/
theorem singleOperation_agrees {g : MutationGroup} {op : MutationOperation}
    (hg : g.operations = [op]) (calls : List Call)
    (hcalls : ∀ k ∈ calls, k.BindsUnder op.table.name) :
    (ofGroup g).plan = op.plan ∧
      (ofGroup g).answers calls = (multiTable g).answers calls ∧
      ((ofGroup g).after calls).state = ((multiTable g).after calls).state := by
  have hstart := Twins.start hg
  obtain ⟨hanswers, hlast⟩ := hstart.run hg calls hcalls
  exact ⟨hstart.single, hanswers, hlast.state⟩

/-- The detail of a person, which is written once; a column that it does not have is refused. -/
theorem singleOperation_agrees_detail :
    let detail : TableMapping := ⟨"person_detail", none, ["person_id"], ["bio"], true⟩
    let op := detail.updateOperation .question
    let g : MutationGroup := ⟨.update, ⟨"Detail", [detail]⟩, [op]⟩
    let c := Connection.start .sqlite [⟨"person_detail", ["person_id", "bio"], ["person_id"], []⟩]
    let calls : List Call :=
      [.bind "person_detail" "person_id" .restrict (.int 1),
        .bind "person_detail" "age" .set (.int 36), .bind "person_detail" "bio" .set (.text "x"),
        .execute .unknown (fun _ => true) c, .execute .unknown (fun _ => true) c]
    g.operations = [op] ∧ (∀ k ∈ calls, k.BindsUnder op.table.name) ∧
      (ofGroup g).plan = op.plan ∧
      (ofGroup g).answers calls = (multiTable g).answers calls ∧
      ((ofGroup g).after calls).state = ((multiTable g).after calls).state ∧
      ((ofGroup g).answers calls).map (·.result) =
        [.ok (), .error (.unknownParameter "person_detail" "age" .set), .ok (), .ok (),
          .error (.illegalState .alreadyExecuted)] ∧
      ((ofGroup g).answers calls).map (fun a => a.connection.map (·.database.map (·.rows))) =
        [none, none, none, some [[[.int 1, .text "x"]]], some [[]]] := by
  intro detail op g c calls
  have htable : op.table.name = "person_detail" := by
    rw [detail.table_updateOperation]
  have hcalls : ∀ k ∈ calls, k.BindsUnder op.table.name := by
    rw [htable]
    intro k hk
    simp only [calls, List.mem_cons, List.not_mem_nil, or_false] at hk
    rcases hk with rfl | rfl | rfl | rfl | rfl <;> trivial
  obtain ⟨hplan, hanswers, hstate⟩ := @singleOperation_agrees g op rfl calls hcalls
  exact ⟨rfl, hcalls, hplan, hanswers, hstate, by decide +kernel, by decide +kernel⟩

end Executor

end DialectSql
