import DialectSql.Proofs.Entity.Operations

namespace DialectSql

open Store

theorem isSome_slotPosition? {accepts : BindSlot → Bool} {slots : List BindSlot} {s : BindSlot}
    (hs : s ∈ slots) (haccepts : accepts s = true) : (slotPosition? accepts slots).isSome := by
  rw [slotPosition?, Option.isSome_map, List.findIdx?_isSome, List.any_eq_true]
  exact ⟨s, hs, haccepts⟩

namespace MutationOperation

theorem descriptor?_faithful (op : MutationOperation) {column : String} {usage : ParameterUsage}
    {d : ValueDescriptor} (h : op.descriptor? column usage = some d) :
    d.column = column ∧ d.usage = usage := by
  cases op with
  | prepared op =>
      obtain ⟨i, -, rfl⟩ := Option.map_eq_some_iff.1 h
      exact ⟨rfl, rfl⟩
  | selfExecuting op =>
      cases op with
      | optionalUpdate op =>
          obtain ⟨i, -, rfl⟩ := Option.map_eq_some_iff.1 h
          exact ⟨rfl, rfl⟩
      | recording op =>
          change RecordingOperation.descriptor? op column usage = some d at h
          simp only [RecordingOperation.descriptor?, Option.ite_none_right_eq_some] at h
          obtain ⟨-, h⟩ := h
          obtain rfl := Option.some.inj h
          exact ⟨rfl, rfl⟩

/-- The columns that a mutation binds for an operation's table have descriptors. -/
structure Described (op : MutationOperation) (mutation : MutationType) : Prop where
  keys : ∀ k ∈ op.table.keys, (op.descriptor? k (Coordinator.keyUsage mutation)).isSome
  columns : mutation ≠ .delete → ∀ c ∈ op.table.columns, (op.descriptor? c .set).isSome

end MutationOperation

namespace TableMapping

variable (t : TableMapping) (style : PlaceholderStyle)

theorem described_insertOperation : (t.insertOperation style).Described .insert := by
  have hslots (op : PreparedOperation) (hop : op.statement.parameters = t.insertSlots .set)
      (ht : op.table = t) {c : String} (hc : c ∈ t.keys ++ t.columns) :
      (op.descriptor? c .set).isSome := by
    rw [PreparedOperation.descriptor?, Option.isSome_map, hop, ht]
    refine isSome_slotPosition? (s := t.slot .set c) ?_ (beq_self_eq_true _)
    rw [insertSlots, ← List.map_append]
    exact List.mem_map_of_mem hc
  constructor
  · intro k hk
    exact hslots _ (t.parameters_insertSql style .set) rfl (List.mem_append_left _ hk)
  · intro _ c hc
    exact hslots _ (t.parameters_insertSql style .set) rfl (List.mem_append_right _ hc)

theorem mem_parameters_updateSql :
    (∀ k ∈ t.keys, t.slot .restrict k ∈ (t.updateSql style).parameters) ∧
      ∀ c ∈ t.columns, t.slot .set c ∈ (t.updateSql style).parameters := by
  rw [parameters_updateSql]
  exact ⟨fun k hk => List.mem_append_right _ (List.mem_map_of_mem hk),
    fun c hc => List.mem_append_left _ (List.mem_map_of_mem hc)⟩

theorem described_updateOperation : (t.updateOperation style).Described .update := by
  obtain ⟨hkeys, hcolumns⟩ := t.mem_parameters_updateSql style
  have htable := t.table_updateOperation style
  have hdescribed (usage : ParameterUsage) (c : String)
      (hslot : t.slot usage c ∈ (t.updateSql style).parameters) :
      ((t.updateOperation style).descriptor? c usage).isSome := by
    rw [updateOperation]
    split
    · change (OptionalUpdate.descriptor? _ c usage).isSome
      rw [OptionalUpdate.descriptor?, Option.isSome_map]
      refine isSome_slotPosition? hslot ?_
      rw [slot, OptionalUpdate.isColumn, beq_self_eq_true, beq_self_eq_true]
      rfl
    · change (PreparedOperation.descriptor? _ c usage).isSome
      rw [PreparedOperation.descriptor?, Option.isSome_map]
      exact isSome_slotPosition? hslot (beq_self_eq_true _)
  constructor
  · rw [htable]
    exact fun k hk => hdescribed .restrict k (hkeys k hk)
  · rw [htable]
    exact fun _ c hc => hdescribed .set c (hcolumns c hc)

theorem described_deleteOperation : (t.deleteOperation style).Described .delete := by
  constructor
  · intro k hk
    change (PreparedOperation.descriptor? _ k .restrict).isSome
    rw [PreparedOperation.descriptor?, Option.isSome_map]
    refine isSome_slotPosition? (s := t.slot .restrict k) ?_ (beq_self_eq_true _)
    rw [parameters_deleteSql]
    exact List.mem_map_of_mem hk
  · exact fun hne => absurd rfl hne

end TableMapping

namespace MutationGroup

variable {g : MutationGroup}

theorem operation?_eq {ops : List MutationOperation} (h : (ops.map (·.table.name)).Nodup)
    {op : MutationOperation} (hop : op ∈ ops) :
    ops.find? (·.table.name == op.table.name) = some op := by
  induction ops with
  | nil => cases hop
  | cons o ops ih =>
      obtain ⟨hnot, hnodup⟩ := List.nodup_cons.1 h
      rw [List.find?_cons]
      rcases List.mem_cons.1 hop with rfl | hop
      · rw [beq_self_eq_true]
      · have hne : o.table.name ≠ op.table.name := fun heq =>
          hnot (List.mem_map.2 ⟨op, hop, heq.symm⟩)
        rw [beq_false_of_ne hne]
        exact ih hnodup hop

end MutationGroup

namespace Plan

variable {g : MutationGroup}

theorem resolve?_faithful (p : Plan) {table column : String} {usage : ParameterUsage}
    {d : ValueDescriptor} (h : p.resolve? table column usage = some d) :
    d.column = column ∧ d.usage = usage := by
  cases p with
  | singleTable op =>
      rw [resolve?] at h
      split at h
      · exact (MutationOperation.prepared op).descriptor?_faithful h
      · cases h
  | singleSelfExecuting op => exact (MutationOperation.selfExecuting op).descriptor?_faithful h
  | multiTable g =>
      obtain ⟨op, -, hop⟩ := Option.bind_eq_some_iff.1 h
      exact op.descriptor?_faithful hop

theorem resolve?_ofGroup (h : (g.operations.map (·.table.name)).Nodup) {op : MutationOperation}
    (hop : op ∈ g.operations) (column : String) (usage : ParameterUsage) :
    (ofGroup g).resolve? op.table.name column usage = op.descriptor? column usage := by
  have hmulti : (multiTable g).resolve? op.table.name column usage = op.descriptor? column usage := by
    rw [resolve?, MutationGroup.operation?, MutationGroup.operation?_eq h hop]
    rfl
  rw [ofGroup]
  split
  · rename_i o heq
    rw [heq, List.mem_singleton] at hop
    subst hop
    exact if_pos rfl
  · rename_i o heq
    rw [heq, List.mem_singleton] at hop
    subst hop
    rfl
  · exact hmulti

theorem bindings_ofGroup (g : MutationGroup) (entity : String) :
    ((ofGroup g).bindings entity).resolve? = (ofGroup g).resolve? := by
  cases ofGroup g <;> rfl

theorem performAll_singleton (a : ValuesAnalysis) (includes : TableMapping → Bool)
    (op : MutationOperation) (r : Running) :
    performAll a includes [op] r =
      if includes op.table then op.perform a r else (r.release op.table.name, .ok ()) := by
  rw [performAll]
  split
  · split
    · rename_i heq
      exact heq.symm
    · rename_i heq
      exact heq.symm
  · rfl

/-- A group of one operation runs as one of several does, up to released values. -/
theorem perform_ofGroup (a : ValuesAnalysis) (includes : TableMapping → Bool) (r : Running) :
    ((ofGroup g).perform a includes r).1.connection =
        (performAll a includes g.operations r).1.connection ∧
      ((ofGroup g).perform a includes r).2 = (performAll a includes g.operations r).2 := by
  rw [ofGroup]
  split
  · rename_i op heq
    rw [heq, performAll_singleton]
    exact ⟨rfl, rfl⟩
  · rename_i op heq
    rw [heq, performAll_singleton, perform]
    change (if includes op.table then op.perform a r else (r, .ok ())).1.connection =
        (if includes op.table then op.perform a r
          else (r.release op.table.name, .ok ())).1.connection ∧
      (if includes op.table then op.perform a r else (r, .ok ())).2 =
        (if includes op.table then op.perform a r else (r.release op.table.name, .ok ())).2
    split <;> exact ⟨rfl, rfl⟩
  · exact ⟨rfl, rfl⟩

variable {mutation : MutationType} {v : EntityValues} {a : ValuesAnalysis}
  {includes : TableMapping → Bool} {M N : List Entity}

theorem performAll_cons {op : MutationOperation} {r : Running} (ops : List MutationOperation)
    (hop : op.Turns op.table mutation v a includes M N)
    (hM : op.table.HoldsIn r.connection.database M)
    (hb : Coordinator.Bound mutation v r.bindings op.table) :
    ∃ r', performAll a includes (op :: ops) r = performAll a includes ops r' ∧
      r.Writes r' op.table ∧ op.table.HoldsIn r'.connection.database N := by
  by_cases hincludes : includes op.table = true
  · obtain ⟨r', hperform, hwrites, hholds⟩ := hop.runs hincludes r hM hb
    refine ⟨r', ?_, hwrites, hholds⟩
    rw [performAll, if_pos hincludes, hperform]
  · refine ⟨r.release op.table.name, ?_, .release r op.table, ?_⟩
    · rw [performAll, if_neg hincludes]
    · exact hop.skips (Bool.eq_false_iff.2 hincludes) _ hM

/-- Operations on different tables run one after the other, each on its own table. -/
theorem performAll_ok {ops : List MutationOperation} (hnames : (ops.map (·.table.name)).Nodup)
    (hops : ∀ op ∈ ops, op.Turns op.table mutation v a includes M N) (r : Running)
    (hM : ∀ op ∈ ops, op.table.HoldsIn r.connection.database M)
    (hb : ∀ op ∈ ops, Coordinator.Bound mutation v r.bindings op.table) :
    ∃ r', performAll a includes ops r = (r', .ok ()) ∧
      (∀ op ∈ ops, op.table.HoldsIn r'.connection.database N) ∧
      ∀ n : TableName, n.name ∉ ops.map (·.table.name) →
        r'.connection.database.table? n = r.connection.database.table? n := by
  induction ops generalizing r with
  | nil => exact ⟨r, rfl, fun _ hop => absurd hop List.not_mem_nil, fun _ _ => rfl⟩
  | cons op ops ih =>
      obtain ⟨hnot, hnames⟩ := List.nodup_cons.1 hnames
      obtain ⟨r₁, hstep, hwrites, hholds⟩ := performAll_cons ops
        (hops op (List.mem_cons_self ..)) (hM op (List.mem_cons_self ..))
        (hb op (List.mem_cons_self ..))
      have hother : ∀ o ∈ ops, o.table.name ≠ op.table.name := fun o ho heq =>
        hnot (List.mem_map.2 ⟨o, ho, heq⟩)
      -- the step wrote its own table only, so that the others are as they were for the rest
      obtain ⟨r', hrest, hholds', hothers⟩ := ih hnames
        (fun o ho => hops o (List.mem_cons_of_mem _ ho)) r₁
        (fun o ho => by
          obtain ⟨u, hu, hrep⟩ := hM o (List.mem_cons_of_mem _ ho)
          exact ⟨u, (hwrites.others _ (hother o ho)).trans hu, hrep⟩)
        (fun o ho => (hb o (List.mem_cons_of_mem _ ho)).congr fun c u =>
          hwrites.bindings o.table.name c u (hother o ho))
      refine ⟨r', hstep.trans hrest, ?_, ?_⟩
      · intro o ho
        rcases List.mem_cons.1 ho with rfl | ho
        · obtain ⟨u, hu, hrep⟩ := hholds
          exact ⟨u, (hothers _ hnot).trans hu, hrep⟩
        · exact hholds' o ho
      · intro n hn
        rw [List.map_cons, List.mem_cons, not_or] at hn
        exact (hothers n hn.2).trans (hwrites.others n hn.1)

end Plan

namespace Coordinator

variable {m : MutationTarget} {mutation : MutationType} {v : EntityValues} {c : Connection}
  {M N : List Entity} {ts : List TableMapping} {operationOf : TableMapping → MutationOperation}

theorem tables_map (htable : ∀ t, (operationOf t).table = t) :
    (ts.map operationOf).map (·.table) = ts := by
  rw [List.map_map]
  exact (List.map_congr_left fun t _ => htable t).trans (List.map_id ts)

theorem names_map (htable : ∀ t, (operationOf t).table = t) :
    (ts.map operationOf).map (·.table.name) = ts.map (·.name) := by
  rw [List.map_map]
  exact List.map_congr_left fun t _ => congrArg (·.name) (htable t)

theorem forall_operation (htable : ∀ t, (operationOf t).table = t)
    (p : MutationOperation → TableMapping → Prop) (h : ∀ t ∈ ts, p (operationOf t) t) :
    ∀ op ∈ ts.map operationOf, p op op.table := by
  intro op hop
  obtain ⟨t, ht, rfl⟩ := List.mem_map.1 hop
  rw [htable]
  exact h t ht

/-- The bindings of operations on different tables know all columns that the mutation binds. -/
theorem resolved_ofGroup (htable : ∀ t, (operationOf t).table = t)
    (hnames : (ts.map (·.name)).Nodup)
    (hdescribed : ∀ t ∈ ts, (operationOf t).Described mutation) :
    ((Plan.ofGroup ⟨mutation, m, ts.map operationOf⟩).bindings m.entity).Faithful ∧
      ∀ t ∈ ts, Resolved mutation
        ((Plan.ofGroup ⟨mutation, m, ts.map operationOf⟩).bindings m.entity) t := by
  have hresolve := Plan.bindings_ofGroup ⟨mutation, m, ts.map operationOf⟩ m.entity
  have hoperations : ((ts.map operationOf).map (·.table.name)).Nodup := by
    rwa [names_map htable]
  refine ⟨fun table column usage d hd => ?_, fun t ht => ?_⟩
  · rw [hresolve] at hd
    exact Plan.resolve?_faithful _ hd
  · have hown := Plan.resolve?_ofGroup (g := ⟨mutation, m, ts.map operationOf⟩) hoperations
      (List.mem_map_of_mem ht)
    obtain ⟨hkeys, hcolumns⟩ := hdescribed t ht
    rw [htable] at hown hkeys hcolumns
    constructor
    · intro k hk
      rw [hresolve, hown]
      exact hkeys k hk
    · intro hne col hcol
      rw [hresolve, hown]
      exact hcolumns hne col hcol

theorem bindings_ok (htable : ∀ t, (operationOf t).table = t)
    (hnames : (ts.map (·.name)).Nodup) (hlength : ∀ t ∈ ts, t.keys.length = v.id.length)
    (hkeyed : ∀ t ∈ ts, t.Keyed)
    (hdescribed : ∀ t ∈ ts, (operationOf t).Described mutation) :
    ∃ b, bindTables m mutation v ts
        ((Plan.ofGroup ⟨mutation, m, ts.map operationOf⟩).bindings m.entity) = .ok b ∧
      ∀ t ∈ ts, Bound mutation v b t := by
  obtain ⟨hfaithful, hresolved⟩ := resolved_ofGroup (m := m) htable hnames hdescribed
  obtain ⟨b, hbind, -, hbound⟩ := bindTables_ok (m := m) hfaithful hnames hlength hkeyed hresolved
  exact ⟨b, hbind, hbound⟩

/-- A mutation whose operations each turn their own table turns all of them, and leaves the other
tables alone. -/
theorem mutate_ok (mutation : MutationType) (htable : ∀ t, (operationOf t).table = t)
    (hbuild : MutationGroup.build c.dialect m mutation = .ok ⟨mutation, m, ts.map operationOf⟩)
    (hnames : (ts.map (·.name)).Nodup) (hlength : ∀ t ∈ ts, t.keys.length = v.id.length)
    (hkeyed : ∀ t ∈ ts, t.Keyed)
    (hdescribed : ∀ t ∈ ts, (operationOf t).Described mutation)
    (hturns : ∀ t ∈ ts, (operationOf t).Turns t mutation v (.analyze m v)
      (includes mutation (.analyze m v)) M N)
    (hM : ∀ t ∈ ts, t.HoldsIn c.database M) :
    ∃ c', mutate m mutation v c = (c', .ok ()) ∧ (∀ t ∈ ts, t.HoldsIn c'.database N) ∧
      ∀ n : TableName, n.name ∉ ts.map (·.name) →
        c'.database.table? n = c.database.table? n := by
  rw [mutate, hbuild]
  by_cases hempty : (ts.map operationOf).isEmpty = true
  · refine ⟨c, ?_, ?_, fun _ _ => rfl⟩
    · simp only [hempty, if_true]
    · obtain rfl := List.map_eq_nil_iff.1 (List.isEmpty_iff.1 hempty)
      exact fun t ht => absurd ht List.not_mem_nil
  -- the bindings hold for all tables before the first operation runs
  · obtain ⟨b, hbind, hbound⟩ := bindings_ok (m := m) htable hnames hlength hkeyed hdescribed
    obtain ⟨r', hperform, hholds, hothers⟩ := Plan.performAll_ok (by rwa [names_map htable])
      (forall_operation htable (fun op t => op.Turns t ..) hturns) ⟨b, c⟩
      (forall_operation htable (fun _ t => t.HoldsIn c.database M) hM)
      (forall_operation htable (fun _ t => Bound mutation v b t) hbound)
    rw [names_map htable] at hothers
    obtain ⟨hconnection, hresult⟩ := Plan.perform_ofGroup (g := ⟨mutation, m, ts.map operationOf⟩)
      (.analyze m v) (includes mutation (.analyze m v)) ⟨b, c⟩
    rw [hperform] at hconnection hresult
    refine ⟨r'.connection, ?_, ?_, hothers⟩
    · simp only [hempty, Bool.false_eq_true, if_false, Executor.ofGroup, Executor.ofPlan,
        Executor.openBindings, tables_map htable, hbind, Executor.execute, hconnection, hresult]
    · intro t ht
      have hown := hholds _ (List.mem_map_of_mem ht)
      rwa [htable] at hown

end Coordinator

end DialectSql
