import DialectSql.Entity.Executor

namespace DialectSql

namespace Executor

/-- A call of an executor. An execution comes with the connection that it runs on. -/
inductive Call
  | openBindings
  | bind (table column : String) (usage : ParameterUsage) (value : SqlValue)
  | execute (analysis : ValuesAnalysis) (includes : TableMapping → Bool) (connection : Connection)
  | release

def call (x : Executor) : Call → Executor
  | .openBindings =>
    match x.openBindings with
    | .ok y => y
    | .error _ => x
  | .bind table column usage v => (x.bind table column usage v).1
  | .execute a includes c => (x.execute a includes c).1
  | .release => x.release

def after (x : Executor) (calls : List Call) : Executor := calls.foldl call x

/-- What an execution did to its connection, and its result. -/
structure Execution where
  before : Connection
  after : Connection
  result : Except MutationError Unit

def executions (x : Executor) : List Call → List Execution
  | [] => []
  | .execute a includes c :: calls =>
    let (y, c', result) := x.execute a includes c
    ⟨c, c', result⟩ :: y.executions calls
  | k :: calls => (x.call k).executions calls

/-- Nothing was run, since the executor had run before or was released. -/
def Execution.IsRefused (e : Execution) : Prop :=
  e.after = e.before ∧ (e.result = .error (.illegalState .alreadyExecuted) ∨
    e.result = .error (.illegalState .alreadyReleased))

/-- Neither executions nor bindings are possible, and an attempt leaves everything as it is. -/
structure IsClosed (x : Executor) : Prop where
  execute : ∀ a includes c,
    x.execute a includes c = (x, c, .error (.illegalState .alreadyExecuted)) ∨
      x.execute a includes c = (x, c, .error (.illegalState .alreadyReleased))
  openBindings : x.openBindings = .error (.illegalState (.bindingAfter x.state))
  bind : ∀ table column usage v,
    x.bind table column usage v = (x, .error (.illegalState (.bindingAfter x.state)))

/-- A released executor holds no values. -/
def Cleared (x : Executor) : Prop := x.state = .released → x.bindings.groups = []

variable {x : Executor}

@[simp] theorem after_nil (x : Executor) : x.after [] = x := rfl

@[simp] theorem after_cons (x : Executor) (k : Call) (calls : List Call) :
    x.after (k :: calls) = (x.call k).after calls := rfl

theorem after_append (x : Executor) (calls more : List Call) :
    x.after (calls ++ more) = (x.after calls).after more := List.foldl_append

theorem isClosed_of_rank (h : 2 ≤ x.state.rank) : x.IsClosed := by
  obtain ⟨plan, state, bindings⟩ := x
  cases state with
  | created | bound => simp [ExecutorState.rank] at h
  | executed => exact ⟨fun _ _ _ => .inl rfl, rfl, fun _ _ _ _ => rfl⟩
  | released => exact ⟨fun _ _ _ => .inr rfl, rfl, fun _ _ _ _ => rfl⟩

/-- An execution that is not refused ends the use of the executor, whatever comes of it. -/
theorem state_execute (a : ValuesAnalysis) (includes : TableMapping → Bool) (c : Connection)
    (h : x.state.rank < 2) : (x.execute a includes c).1.state = .executed := by
  obtain ⟨plan, state, bindings⟩ := x
  cases state with
  | created | bound => rfl
  | executed | released => simp [ExecutorState.rank] at h

theorem executed_le_execute (a : ValuesAnalysis) (includes : TableMapping → Bool) (c : Connection) :
    2 ≤ (x.execute a includes c).1.state.rank := by
  by_cases h : x.state.rank < 2
  · rw [state_execute a includes c h]
    decide
  · have hrank : 2 ≤ x.state.rank := Nat.le_of_not_lt h
    rcases (isClosed_of_rank hrank).execute a includes c with heq | heq <;> rwa [heq]

theorem state_bind (table column : String) (usage : ParameterUsage) (v : SqlValue)
    (h : x.state.rank < 2) : (x.bind table column usage v).1.state = .bound := by
  obtain ⟨plan, state, bindings⟩ := x
  cases state with
  | created | bound =>
      simp only [bind, openBindings]
      split <;> rfl
  | executed | released => simp [ExecutorState.rank] at h

theorem state_openBindings (h : x.state.rank < 2) : (x.call .openBindings).state = .bound := by
  obtain ⟨plan, state, bindings⟩ := x
  cases state with
  | created | bound => rfl
  | executed | released => simp [ExecutorState.rank] at h

@[simp] theorem state_release (x : Executor) : x.release.state = .released := by
  obtain ⟨plan, state, bindings⟩ := x
  cases state <;> rfl

/-- A closed executor can only be released. -/
theorem call_of_rank (h : 2 ≤ x.state.rank) (k : Call) : x.call k = x ∨ x.call k = x.release := by
  have hclosed := isClosed_of_rank h
  cases k with
  | openBindings =>
      left
      rw [call, hclosed.openBindings]
  | bind table column usage v =>
      left
      rw [call, hclosed.bind]
  | execute a includes c =>
      left
      rw [call]
      rcases hclosed.execute a includes c with heq | heq <;> rw [heq]
  | release => exact .inr rfl

theorem rank_le_three (s : ExecutorState) : s.rank ≤ 3 := by cases s <;> decide

/-- No call takes the state back. -/
theorem rank_call (x : Executor) (k : Call) : x.state.rank ≤ (x.call k).state.rank := by
  have hrelease : x.state.rank ≤ x.release.state.rank := by
    rw [state_release]
    exact rank_le_three x.state
  by_cases h : x.state.rank < 2
  · have hbound : x.state.rank ≤ ExecutorState.bound.rank := Nat.le_of_lt_succ h
    cases k with
    | openBindings =>
        rw [state_openBindings h]
        exact hbound
    | bind table column usage v =>
        rw [call, state_bind table column usage v h]
        exact hbound
    | execute a includes c =>
        rw [call, state_execute a includes c h]
        exact Nat.le_of_lt h
    | release => exact hrelease
  · rcases call_of_rank (Nat.le_of_not_lt h) k with heq | heq
    · exact Nat.le_of_eq (by rw [heq])
    · rwa [heq]

theorem cleared_release (h : x.Cleared) : x.release.Cleared := by
  obtain ⟨plan, state, bindings⟩ := x
  cases state with
  | released => exact h
  | created | bound | executed => exact fun _ => rfl

theorem cleared_call (h : x.Cleared) (k : Call) : (x.call k).Cleared := by
  by_cases hrank : x.state.rank < 2
  · cases k with
    | openBindings => exact fun hstate => by simp [state_openBindings hrank] at hstate
    | bind table column usage v =>
        exact fun hstate => by simp [call, state_bind table column usage v hrank] at hstate
    | execute a includes c =>
        exact fun hstate => by simp [call, state_execute a includes c hrank] at hstate
    | release => exact cleared_release h
  · rcases call_of_rank (Nat.le_of_not_lt hrank) k with heq | heq
    · rwa [heq]
    · rw [heq]
      exact cleared_release h

theorem rank_after (x : Executor) (calls : List Call) :
    x.state.rank ≤ (x.after calls).state.rank := by
  induction calls generalizing x with
  | nil => exact Nat.le_refl _
  | cons k calls ih => exact Nat.le_trans (rank_call x k) (ih (x.call k))

theorem cleared_after (h : x.Cleared) (calls : List Call) : (x.after calls).Cleared := by
  induction calls generalizing x with
  | nil => exact h
  | cons k calls ih => exact ih (cleared_call h k)

theorem refused_executions (h : 2 ≤ x.state.rank) (calls : List Call) :
    ∀ e ∈ x.executions calls, e.IsRefused := by
  induction calls generalizing x with
  | nil => exact fun e he => by cases he
  | cons k calls ih =>
      have hrest := ih (Nat.le_trans h (rank_call x k))
      cases k with
      | execute a includes c =>
          rw [executions, List.forall_mem_cons]
          refine ⟨?_, hrest⟩
          rcases (isClosed_of_rank h).execute a includes c with heq | heq
          · rw [heq]
            exact ⟨rfl, .inl rfl⟩
          · rw [heq]
            exact ⟨rfl, .inr rfl⟩
      | openBindings | bind | release => exact hrest

/-- Whatever comes of the first execution, it is the only one that runs. -/
theorem refused_tail (x : Executor) (calls : List Call) :
    ∀ e ∈ (x.executions calls).tail, e.IsRefused := by
  induction calls generalizing x with
  | nil => exact fun e he => by cases he
  | cons k calls ih =>
      cases k with
      | execute a includes c => exact refused_executions (executed_le_execute a includes c) calls
      | openBindings | bind | release => exact ih _

/-- The life of an executor: its state never goes back, only the first execution runs, executed or
released it takes neither bindings nor executions, and released it holds no values. -/
theorem lifecycle (p : Plan) (entity : String) (calls : List Call) :
    let x := ofPlan p entity
    (∀ more, (x.after calls).state.rank ≤ (x.after (calls ++ more)).state.rank) ∧
    (∀ e ∈ (x.executions calls).tail, e.IsRefused) ∧
    (∀ a includes c, (x.after calls).state.rank < 2 →
      ((x.after calls).execute a includes c).1.state = .executed) ∧
    (2 ≤ (x.after calls).state.rank → (x.after calls).IsClosed) ∧
    ((x.after calls).state = .released → (x.after calls).bindings.groups = []) := by
  intro x
  have hcleared : x.Cleared := nofun
  refine ⟨fun more => ?_, refused_tail x calls, fun a includes c h => state_execute a includes c h,
    fun h => isClosed_of_rank h, cleared_after hcleared calls⟩
  rw [after_append]
  exact rank_after _ more

/-- An execution that fails is the only one all the same. -/
theorem lifecycle_failure :
    let op : RecordingOperation := ⟨1, ⟨"person", none, ["id"], ["name"], false⟩, true⟩
    let x := ofPlan (.singleSelfExecuting (.recording op)) "Person"
    let execution := Call.execute .unknown (fun _ => true) (.start .sqlite [])
    let bound := x.after [.bind "person" "name" .set (.text "Ada")]
    let run := [.bind "person" "name" .set (.text "Ada"), execution]
    (bound.call execution).state = .executed ∧ (x.after run).IsClosed ∧
      (x.executions (run ++ [execution])).map (·.after.recordings.length) = [1, 0] ∧
      (∀ e ∈ (x.executions (run ++ [execution])).tail, e.IsRefused) ∧
      (x.after (run ++ [.release, .release])).bindings.groups = [] := by
  intro op x execution bound run
  obtain ⟨-, -, hexecuted, -, -⟩ := lifecycle (.singleSelfExecuting (.recording op)) "Person"
    [.bind "person" "name" .set (.text "Ada")]
  obtain ⟨-, -, -, hclosed, -⟩ := lifecycle (.singleSelfExecuting (.recording op)) "Person" run
  obtain ⟨-, hrefused, -, -, -⟩ := lifecycle (.singleSelfExecuting (.recording op)) "Person"
    (run ++ [execution])
  obtain ⟨-, -, -, -, hcleared⟩ := lifecycle (.singleSelfExecuting (.recording op)) "Person"
    (run ++ [.release, .release])
  exact ⟨hexecuted _ _ _ (by decide), hclosed (by decide), by decide, hrefused, hcleared (by decide)⟩

end Executor

end DialectSql
