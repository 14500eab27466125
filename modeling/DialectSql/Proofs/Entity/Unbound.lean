import DialectSql.Proofs.Entity.Lifecycle
import DialectSql.Proofs.Entity.Refinement

namespace DialectSql

/-- The values that a mutation's statement takes for a table, by column and usage. -/
def TableMapping.needs (t : TableMapping) : MutationType → List (String × ParameterUsage)
  | .insert => (t.keys ++ t.columns).map fun c => (c, .set)
  | .update => t.columns.map (fun c => (c, .set)) ++ t.keys.map fun k => (k, .restrict)
  | .delete => t.keys.map fun k => (k, .restrict)

namespace MutationOperation

/-- What an operation sends, if anything. An optional table without values has at most a row to
delete. -/
def sends? (op : MutationOperation) (a : ValuesAnalysis) (b : ValueBindings) :
    Option MutationType :=
  match op with
  | prepared op => some op.mutation
  | selfExecuting (.optionalUpdate op) =>
    if op.allNull b then if a.mayHaveRow op.table.name then some .delete else none
    else some .update
  | selfExecuting (.recording _) => none

/-- A column has no value in the usage that the operation's statement needs. -/
structure Lacks (op : MutationOperation) (a : ValuesAnalysis) (b : ValueBindings) (column : String)
    (usage : ParameterUsage) : Prop where
  needed : ∃ mutation, op.sends? a b = some mutation ∧ (column, usage) ∈ op.table.needs mutation
  missing : b.value? op.table.name column usage = none

def Lacking (op : MutationOperation) (a : ValuesAnalysis) (b : ValueBindings) : Prop :=
  ∃ column usage, op.Lacks a b column usage

end MutationOperation

namespace ValueBindings

variable {b : ValueBindings} {t : TableMapping} {ps : List (String × ParameterUsage)}

theorem slotValues_of_missing (h : ∃ p ∈ ps, b.value? t.name p.1 p.2 = none) :
    ∃ p ∈ ps, b.value? t.name p.1 p.2 = none ∧
      b.slotValues (ps.map fun p => t.slot p.2 p.1) = .error (.missingBinding t.name p.1 p.2) := by
  induction ps with
  | nil =>
      obtain ⟨p, hp, -⟩ := h
      cases hp
  | cons p ps ih =>
      rw [slotValues, List.map_cons, List.mapM_cons, TableMapping.slot, slotValue]
      cases hvalue : b.value? t.name p.1 p.2 with
      | none => exact ⟨p, List.mem_cons_self .., hvalue, rfl⟩
      | some v =>
          have hrest : ∃ q ∈ ps, b.value? t.name q.1 q.2 = none := by
            obtain ⟨q, hq, hnone⟩ := h
            rcases List.mem_cons.1 hq with rfl | hq
            · rw [hvalue] at hnone
              cases hnone
            · exact ⟨q, hq, hnone⟩
          obtain ⟨q, hq, hnone, herror⟩ := ih hrest
          rw [slotValues] at herror
          refine ⟨q, List.mem_cons_of_mem _ hq, hnone, ?_⟩
          rw [herror]
          rfl

theorem slotValues_of_bound (h : ∀ p ∈ ps, b.value? t.name p.1 p.2 ≠ none) :
    ∃ values, b.slotValues (ps.map fun p => t.slot p.2 p.1) = .ok values := by
  induction ps with
  | nil => exact ⟨[], rfl⟩
  | cons p ps ih =>
      obtain ⟨v, hv⟩ := Option.ne_none_iff_exists'.1 (h p (List.mem_cons_self ..))
      obtain ⟨values, hvalues⟩ := ih fun q hq => h q (List.mem_cons_of_mem _ hq)
      rw [slotValues] at hvalues
      refine ⟨v :: values, ?_⟩
      rw [slotValues, List.map_cons, List.mapM_cons, TableMapping.slot, slotValue, hv, hvalues]
      rfl

end ValueBindings

/-- A statement fails and changes nothing, or the database reads it as a command and runs that. -/
theorem Connection.execute_cases (c : Connection) (sql : String) (values : List SqlValue) :
    c.execute sql values = (c.note sql values, .error .database) ∨
      ∃ command db count, Store.Command.ofText? sql = some command ∧
        c.database.change? values command = some (db, count) ∧
        c.execute sql values = ({ c.note sql values with database := db }, .ok count) := by
  rw [execute]
  dsimp only
  cases hchange : Store.Command.ofText? sql >>= (c.note sql values).database.change? values with
  | none => exact .inl rfl
  | some changed =>
      obtain ⟨command, hcommand, hdatabase⟩ := Option.bind_eq_some_iff.1 hchange
      exact .inr ⟨command, changed.1, changed.2, hcommand, hdatabase, rfl⟩

namespace Running

/-- Statements were sent for a table, and its values may have been released. -/
structure Leads (r r' : Running) (table : String) : Prop where
  sent : r.connection.sent.length ≤ r'.connection.sent.length
  bindings : ∀ t column usage, t ≠ table →
    r'.bindings.value? t column usage = r.bindings.value? t column usage

variable {r r₁ r₂ : Running} {table : String}

theorem Leads.refl (r : Running) (table : String) : r.Leads r table :=
  ⟨Nat.le_refl _, fun _ _ _ _ => rfl⟩

theorem Leads.trans (h : r.Leads r₁ table) (h' : r₁.Leads r₂ table) : r.Leads r₂ table where
  sent := Nat.le_trans h.sent h'.sent
  bindings t column usage ht := (h'.bindings t column usage ht).trans (h.bindings t column usage ht)

theorem Leads.release (r : Running) (table : String) : r.Leads (r.release table) table where
  sent := Nat.le_refl _
  bindings _ column usage ht := ValueBindings.value?_release r.bindings ht column usage

theorem sent_execute (c : Connection) (sql : String) (values : List SqlValue) :
    (c.execute sql values).1.sent = c.sent ++ [⟨sql, values⟩] := by
  rcases c.execute_cases sql values with h | ⟨command, db, count, -, -, h⟩
  · rw [h]
    rfl
  · rw [h]
    rfl

theorem bindings_run (r : Running) (s : TranslatedSql) : (r.run s).1.bindings = r.bindings := by
  rw [run]
  split <;> rfl

theorem leads_run (r : Running) (s : TranslatedSql) (table : String) :
    r.Leads (r.run s).1 table := by
  refine ⟨?_, fun _ _ _ _ => by rw [bindings_run]⟩
  rw [run]
  split
  · exact Nat.le_refl _
  · rw [sent_execute, List.length_append]
    exact Nat.le_add_right ..

variable {t : TableMapping} {s : TranslatedSql} {ps : List (String × ParameterUsage)}

theorem run_of_missing (hs : s.parameters = ps.map fun p => t.slot p.2 p.1)
    (hmissing : ∃ p ∈ ps, r.bindings.value? t.name p.1 p.2 = none) :
    ∃ p ∈ ps, r.bindings.value? t.name p.1 p.2 = none ∧
      r.run s = (r, .error (.missingBinding t.name p.1 p.2)) := by
  obtain ⟨p, hp, hnone, herror⟩ := ValueBindings.slotValues_of_missing hmissing
  refine ⟨p, hp, hnone, ?_⟩
  rw [run, hs, herror]

theorem sent_run (hs : s.parameters = ps.map fun p => t.slot p.2 p.1)
    (hbound : ∀ p ∈ ps, r.bindings.value? t.name p.1 p.2 ≠ none) :
    r.connection.sent.length < (r.run s).1.connection.sent.length := by
  obtain ⟨values, hvalues⟩ := ValueBindings.slotValues_of_bound hbound
  rw [run, hs, hvalues]
  simp only [sent_execute, List.length_append, List.length_singleton]
  exact Nat.lt_succ_self _

/-- Some work for a table begins with a statement, and stops where that fails. -/
structure Begins (r : Running) (s : TranslatedSql) (table : String)
    (result : Running × Except MutationError Unit) : Prop where
  fails : ∀ e, r.run s = (r, .error e) → result = (r, .error e)
  leads : (r.run s).1.Leads result.1 table

theorem begins_match {k : Running → Nat → Running × Except MutationError Unit}
    (hk : ∀ r' count, Leads r' (k r' count).1 table) (r : Running) (s : TranslatedSql) :
    r.Begins s table (match r.run s with
      | (r', .error e) => (r', .error e)
      | (r', .ok count) => k r' count) := by
  constructor
  · intro e hrun
    rw [hrun]
  · split <;> rename_i heq <;> rw [heq]
    · exact .refl _ _
    · exact hk _ _

end Running

theorem PreparedOperation.begins (op : PreparedOperation) (r : Running) :
    r.Begins op.statement op.table.name (op.perform r) :=
  Running.begins_match
    (k := fun r' count => (r'.release op.table.name, op.expectation.verify op.table.name count))
    (fun _ _ => .release _ _) r op.statement

namespace OptionalUpdate

variable (op : OptionalUpdate) (a : ValuesAnalysis) (r : Running)

theorem begins_remove : r.Begins op.deletion op.table.name (op.remove true r) :=
  Running.begins_match (k := fun r' _ => (r', .ok ())) (fun _ _ => .refl _ _) r op.deletion

theorem begins_insertion : r.Begins op.insertion op.table.name (op.upsert false r) :=
  Running.begins_match
    (k := fun r' inserted => (r', Expectation.verify (some 1) op.table.name inserted))
    (fun _ _ => .refl _ _) r op.insertion

/-- Where the update touched no row, the rest is as if there was none. -/
theorem upsert_true : op.upsert true r = match r.run op.update with
    | (r', .error e) => (r', .error e)
    | (r', .ok count) => if count = 0 then op.upsert false r' else (r', .ok ()) := by
  rw [upsert, if_pos rfl]
  obtain ⟨r', e | _ | count⟩ := r.run op.update <;> rfl

theorem begins_update : r.Begins op.update op.table.name (op.upsert true r) := by
  have hinsertion (r' : Running) : r'.Leads (op.upsert false r').1 op.table.name :=
    (Running.leads_run r' op.insertion _).trans (op.begins_insertion r').leads
  rw [upsert_true]
  refine Running.begins_match (k := fun r' count =>
    if count = 0 then op.upsert false r' else (r', .ok ())) (fun r' count => ?_) r op.update
  split
  · exact hinsertion r'
  · exact .refl _ _

def first? (b : ValueBindings) : Option TranslatedSql :=
  if op.allNull b then if a.mayHaveRow op.table.name then some op.deletion else none
  else some (if a.mayHaveRow op.table.name then op.update else op.insertion)

theorem perform_of_first?_eq_none (h : op.first? a r.bindings = none) :
    op.perform a r = (r.release op.table.name, .ok ()) := by
  refine perform_ok ?_
  rw [first?] at h
  split at h
  · rename_i hnull
    split at h
    · cases h
    · rename_i hmay
      rw [if_pos hnull, remove, if_neg hmay]
  · cases h

theorem begins {s : TranslatedSql} (h : op.first? a r.bindings = some s) :
    r.Begins s op.table.name (op.perform a r) := by
  have hstep : r.Begins s op.table.name
      (if op.allNull r.bindings then op.remove (a.mayHaveRow op.table.name) r
        else op.upsert (a.mayHaveRow op.table.name) r) := by
    rw [first?] at h
    split at h
    · rename_i hnull
      split at h
      · rename_i hmay
        cases h
        rw [if_pos hnull, hmay]
        exact op.begins_remove r
      · cases h
    · rename_i hnull
      cases h
      rw [if_neg hnull]
      cases a.mayHaveRow op.table.name with
      | false => exact op.begins_insertion r
      | true => exact op.begins_update r
  rw [perform]
  dsimp only
  generalize (if op.allNull r.bindings then op.remove (a.mayHaveRow op.table.name) r
    else op.upsert (a.mayHaveRow op.table.name) r) = step at hstep
  -- the values of the table are released at the end, unless a statement failed
  obtain ⟨r', e | _⟩ := step
  · exact hstep
  · exact ⟨fun e hrun => (by cases hstep.fails e hrun), hstep.leads.trans (.release _ _)⟩

end OptionalUpdate

namespace MutationOperation

theorem leads_perform (op : MutationOperation) (a : ValuesAnalysis) (r : Running) :
    r.Leads (op.perform a r).1 op.table.name := by
  cases op with
  | prepared op => exact (Running.leads_run r op.statement _).trans (op.begins r).leads
  | selfExecuting op =>
      cases op with
      | recording op => exact ⟨Nat.le_refl _, fun _ _ _ _ => rfl⟩
      | optionalUpdate op =>
          change r.Leads (op.perform a r).1 op.table.name
          cases hfirst : op.first? a r.bindings with
          | none =>
              rw [op.perform_of_first?_eq_none a r hfirst]
              exact .release _ _
          | some s => exact (Running.leads_run r s _).trans (op.begins a r hfirst).leads

section Congr

variable {op : MutationOperation} {a : ValuesAnalysis} {b b' : ValueBindings}

theorem sends?_congr
    (h : ∀ column usage, b'.value? op.table.name column usage = b.value? op.table.name column usage) :
    op.sends? a b' = op.sends? a b := by
  cases op with
  | prepared op => rfl
  | selfExecuting op =>
      cases op with
      | recording op => rfl
      | optionalUpdate op =>
          have hnull : op.allNull b' = op.allNull b := by
            rw [OptionalUpdate.allNull, OptionalUpdate.allNull]
            exact congrArg op.table.columns.all (funext fun c => by rw [show
              b'.value? op.table.name c .set = b.value? op.table.name c .set from h c .set])
          rw [sends?, sends?, hnull]

theorem lacks_congr
    (h : ∀ column usage, b'.value? op.table.name column usage = b.value? op.table.name column usage)
    {column : String} {usage : ParameterUsage} :
    op.Lacks a b' column usage ↔ op.Lacks a b column usage := by
  constructor
  · rintro ⟨hneeded, hmissing⟩
    exact ⟨by rwa [sends?_congr h] at hneeded, (h column usage).symm.trans hmissing⟩
  · rintro ⟨hneeded, hmissing⟩
    exact ⟨by rwa [sends?_congr h], (h column usage).trans hmissing⟩

theorem lacking_congr
    (h : ∀ column usage, b'.value? op.table.name column usage = b.value? op.table.name column usage) :
    op.Lacking a b' ↔ op.Lacking a b :=
  exists_congr fun _ => exists_congr fun _ => lacks_congr h

end Congr

/-- An operation takes all values of a statement before it sends anything. -/
structure ResolvesFirst (op : MutationOperation) : Prop where
  idle : ∀ (a : ValuesAnalysis) (r : Running), op.sends? a r.bindings = none →
    op.perform a r = (r.release op.table.name, .ok ())
  sending : ∀ (a : ValuesAnalysis) (r : Running) (mutation : MutationType),
    op.sends? a r.bindings = some mutation →
      ∃ (s : TranslatedSql) (ps : List (String × ParameterUsage)),
        r.Begins s op.table.name (op.perform a r) ∧
        s.parameters = ps.map (fun p => op.table.slot p.2 p.1) ∧
          ∀ p, p ∈ ps ↔ p ∈ op.table.needs mutation

namespace ResolvesFirst

variable {op : MutationOperation} {a : ValuesAnalysis} {r : Running}

theorem perform_of_lacking (h : op.ResolvesFirst) (hlacking : op.Lacking a r.bindings) :
    ∃ column usage, op.Lacks a r.bindings column usage ∧
      op.perform a r = (r, .error (.missingBinding op.table.name column usage)) := by
  obtain ⟨column, usage, ⟨mutation, hsends, hneeded⟩, hmissing⟩ := hlacking
  obtain ⟨s, ps, hbegins, hparameters, hps⟩ := h.sending a r mutation hsends
  obtain ⟨p, hp, hnone, hrun⟩ :=
    Running.run_of_missing hparameters ⟨(column, usage), (hps _).2 hneeded, hmissing⟩
  exact ⟨p.1, p.2, ⟨⟨mutation, hsends, (hps p).1 hp⟩, hnone⟩, hbegins.fails _ hrun⟩

theorem sent_perform (h : op.ResolvesFirst) (hsends : op.sends? a r.bindings ≠ none)
    (hbound : ¬ op.Lacking a r.bindings) :
    r.connection.sent.length < (op.perform a r).1.connection.sent.length := by
  obtain ⟨mutation, hsends⟩ := Option.ne_none_iff_exists'.1 hsends
  obtain ⟨s, ps, hbegins, hparameters, hps⟩ := h.sending a r mutation hsends
  have hsent := Running.sent_run (r := r) hparameters fun p hp hnone =>
    hbound ⟨p.1, p.2, ⟨mutation, hsends, (hps p).1 hp⟩, hnone⟩
  exact Nat.lt_of_lt_of_le hsent hbegins.leads.sent

theorem prepared {op : PreparedOperation} (hs : op.statement.parameters =
    (op.table.needs op.mutation).map fun p => op.table.slot p.2 p.1) :
    (MutationOperation.prepared op).ResolvesFirst where
  idle _ _ hidle := by cases hidle
  sending _ r _ hsends := by
    cases hsends
    exact ⟨op.statement, _, op.begins r, hs, fun p => Iff.rfl⟩

/-- Both statements that write the row of an optional table need the same values. -/
theorem optionalUpdate {op : OptionalUpdate}
    (hdeletion : op.deletion.parameters =
      (op.table.needs .delete).map fun p => op.table.slot p.2 p.1)
    (hupdate : op.update.parameters =
      (op.table.needs .update).map fun p => op.table.slot p.2 p.1)
    {ps : List (String × ParameterUsage)} (hps : ∀ p, p ∈ ps ↔ p ∈ op.table.needs .update)
    (hinsertion : op.insertion.parameters = ps.map fun p => op.table.slot p.2 p.1) :
    (MutationOperation.selfExecuting (.optionalUpdate op)).ResolvesFirst where
  idle a r hidle := by
    refine op.perform_of_first?_eq_none a r ?_
    rw [sends?] at hidle
    rw [OptionalUpdate.first?]
    split at hidle
    · rename_i hnull
      rw [if_pos hnull]
      split at hidle
      · cases hidle
      · rename_i hmay
        exact if_neg hmay
    · cases hidle
  sending a r mutation hsends := by
    rw [sends?] at hsends
    split at hsends
    · rename_i hnull
      split at hsends
      · rename_i hmay
        cases hsends
        refine ⟨op.deletion, _, op.begins a r ?_, hdeletion, fun p => Iff.rfl⟩
        rw [OptionalUpdate.first?, if_pos hnull, if_pos hmay]
      · cases hsends
    · rename_i hnull
      cases hsends
      have hfirst := op.begins a r (if_neg hnull)
      split at hfirst
      · exact ⟨op.update, _, hfirst, hupdate, fun p => Iff.rfl⟩
      · exact ⟨op.insertion, ps, hfirst, hinsertion, hps⟩

end ResolvesFirst

end MutationOperation

namespace TableMapping

variable (t : TableMapping) (style : PlaceholderStyle)

theorem parameters_needs :
    (t.insertSql style .set).parameters = (t.needs .insert).map (fun p => t.slot p.2 p.1) ∧
      (t.updateSql style).parameters = (t.needs .update).map (fun p => t.slot p.2 p.1) ∧
        (t.deleteSql style).parameters = (t.needs .delete).map fun p => t.slot p.2 p.1 := by
  rw [parameters_insertSql, parameters_updateSql, parameters_deleteSql]
  refine ⟨?_, ?_, ?_⟩ <;>
    simp only [insertSlots, needs, List.map_append, List.map_map, Function.comp_def]

theorem resolvesFirst_updateOperation : (t.updateOperation style).ResolvesFirst := by
  obtain ⟨-, hupdate, hdelete⟩ := t.parameters_needs style
  rw [updateOperation]
  split
  · refine @MutationOperation.ResolvesFirst.optionalUpdate _ hdelete hupdate
      (t.keys.map (fun k => (k, .restrict)) ++ t.columns.map fun c => (c, .set)) (fun p => ?_) ?_
    · rw [needs, List.mem_append, List.mem_append, or_comm]
    · rw [parameters_insertSql, insertSlots, List.map_append, List.map_map, List.map_map]
      rfl
  · exact .prepared hupdate

end TableMapping

namespace MutationGroup

variable {m : MutationTarget} {mutation : MutationType} (style : PlaceholderStyle)

theorem resolvesFirst_operationsOf : ∀ op ∈ operationsOf style m mutation, op.ResolvesFirst := by
  intro op hop
  cases mutation with
  | insert =>
      obtain ⟨t, -, rfl⟩ := List.mem_map.1 hop
      exact .prepared (t.parameters_needs style).1
  | update =>
      obtain ⟨t, -, rfl⟩ := List.mem_map.1 hop
      exact t.resolvesFirst_updateOperation style
  | delete =>
      obtain ⟨t, -, rfl⟩ := List.mem_map.1 hop
      exact .prepared (t.parameters_needs style).2.2

theorem nodup_operationsOf (h : (m.tables.map (·.name)).Nodup) :
    ((operationsOf style m mutation).map (·.table.name)).Nodup := by
  cases mutation with
  | insert => rwa [operationsOf, Coordinator.names_map fun _ => rfl]
  | update =>
      rw [operationsOf, Coordinator.names_map fun t => t.table_updateOperation style]
      exact h.sublist (List.filter_sublist.map _)
  | delete =>
      rw [operationsOf, Coordinator.names_map fun _ => rfl, List.map_reverse]
      exact List.nodup_reverse.2 h

end MutationGroup

namespace Plan

variable {a : ValuesAnalysis} {includes : TableMapping → Bool} {ops pre post : List MutationOperation}
  {op : MutationOperation} {r : Running}

theorem performAll_append (pre post : List MutationOperation) (r : Running) :
    performAll a includes (pre ++ post) r =
      match performAll a includes pre r with
      | (r', .error e) => (r', .error e)
      | (r', .ok ()) => performAll a includes post r' := by
  induction pre generalizing r with
  | nil => rfl
  | cons op pre ih =>
      rw [List.cons_append, performAll, performAll]
      split
      · split
        · rfl
        · exact ih _
      · exact ih _

theorem sent_performAll (ops : List MutationOperation) (r : Running) :
    r.connection.sent.length ≤ (performAll a includes ops r).1.connection.sent.length := by
  induction ops generalizing r with
  | nil => exact Nat.le_refl _
  | cons op ops ih =>
      rw [performAll]
      split
      · have hstep := (op.leads_perform a r).sent
        split <;> rename_i heq <;> rw [heq] at hstep
        · exact hstep
        · exact Nat.le_trans hstep (ih _)
      · exact ih (r.release op.table.name)

theorem value?_performAll {table : String} (h : table ∉ ops.map (·.table.name)) (column : String)
    (usage : ParameterUsage) : (performAll a includes ops r).1.bindings.value? table column usage =
      r.bindings.value? table column usage := by
  induction ops generalizing r with
  | nil => rfl
  | cons op ops ih =>
      rw [List.map_cons, List.mem_cons, not_or] at h
      obtain ⟨hne, hrest⟩ := h
      rw [performAll]
      split
      · have hstep := (op.leads_perform a r).bindings table column usage hne
        split <;> rename_i heq <;> rw [heq] at hstep
        · exact hstep
        · exact (ih hrest).trans hstep
      · exact (ih hrest).trans ((Running.Leads.release r _).bindings table column usage hne)

/-- None of the operations that are included sends a statement. -/
def Idle (a : ValuesAnalysis) (includes : TableMapping → Bool) (ops : List MutationOperation)
    (b : ValueBindings) : Prop :=
  ∀ o ∈ ops, includes o.table = true → o.sends? a b = none

section Idle

variable (hnot : op.table.name ∉ ops.map (·.table.name))

include hnot

theorem value?_release_of_mem {o : MutationOperation} (ho : o ∈ ops) (column : String)
    (usage : ParameterUsage) :
    (r.release op.table.name).bindings.value? o.table.name column usage =
      r.bindings.value? o.table.name column usage :=
  (Running.Leads.release r _).bindings _ column usage fun heq =>
    hnot (List.mem_map.2 ⟨o, ho, heq⟩)

theorem idle_cons : Idle a includes (op :: ops) r.bindings ↔
    (includes op.table = true → op.sends? a r.bindings = none) ∧
      Idle a includes ops (r.release op.table.name).bindings := by
  rw [Idle, Idle, List.forall_mem_cons]
  refine and_congr_right fun _ => forall₂_congr fun o ho => ?_
  rw [MutationOperation.sends?_congr (value?_release_of_mem hnot ho)]

end Idle

theorem performAll_release (hop : op.ResolvesFirst)
    (hidle : includes op.table = true → op.sends? a r.bindings = none) :
    performAll a includes (op :: ops) r = performAll a includes ops (r.release op.table.name) := by
  rw [performAll]
  split
  · rename_i hincludes
    rw [hop.idle a r (hidle hincludes)]
  · rfl

theorem performAll_of_idle (hnames : (ops.map (·.table.name)).Nodup)
    (hops : ∀ o ∈ ops, o.ResolvesFirst) (hidle : Idle a includes ops r.bindings) :
    (performAll a includes ops r).1.connection = r.connection ∧
      (performAll a includes ops r).2 = .ok () := by
  induction ops generalizing r with
  | nil => exact ⟨rfl, rfl⟩
  | cons op ops ih =>
      obtain ⟨hnot, hnames⟩ := List.nodup_cons.1 hnames
      rw [List.forall_mem_cons] at hops
      obtain ⟨hop, hrest⟩ := (idle_cons hnot).1 hidle
      rw [performAll_release hops.1 hop]
      exact ih hnames hops.2 hrest

/-- Operations that lack no value, one of which sends a statement. -/
theorem sent_performAll_of_not_idle (hnames : (ops.map (·.table.name)).Nodup)
    (hops : ∀ o ∈ ops, o.ResolvesFirst)
    (hbound : ∀ o ∈ ops, includes o.table = true → ¬ o.Lacking a r.bindings)
    (hidle : ¬ Idle a includes ops r.bindings) :
    r.connection.sent.length < (performAll a includes ops r).1.connection.sent.length := by
  induction ops generalizing r with
  | nil => exact absurd (fun _ ho => absurd ho List.not_mem_nil) hidle
  | cons op ops ih =>
      obtain ⟨hnot, hnames⟩ := List.nodup_cons.1 hnames
      rw [List.forall_mem_cons] at hops hbound
      by_cases hop : includes op.table = true → op.sends? a r.bindings = none
      · rw [performAll_release hops.1 hop]
        refine @ih (r.release op.table.name) hnames hops.2 (fun o ho hincludes hlacking => ?_) ?_
        · exact hbound.2 o ho hincludes
            ((MutationOperation.lacking_congr (value?_release_of_mem hnot ho)).1 hlacking)
        · exact fun hrest => hidle ((idle_cons hnot).2 ⟨hop, hrest⟩)
      · obtain ⟨hincludes, hsends⟩ := Classical.not_imp.1 hop
        have hsent := hops.1.sent_perform hsends (hbound.1 hincludes)
        rw [performAll, if_pos hincludes]
        split <;> rename_i heq <;> rw [heq] at hsent
        · exact hsent
        · exact Nat.lt_of_lt_of_le hsent (sent_performAll ops _)

/-- An operation that lacks a value ends a run that has come to it. -/
theorem performAll_lacking (hop : op.ResolvesFirst) (hincludes : includes op.table = true)
    (hnot : op.table.name ∉ pre.map (·.table.name)) (hlacking : op.Lacking a r.bindings) :
    (performAll a includes (pre ++ op :: post) r).1 = (performAll a includes pre r).1 ∧
      ((performAll a includes pre r).2 = .ok () → ∃ column usage,
        op.Lacks a r.bindings column usage ∧
          (performAll a includes (pre ++ op :: post) r).2 =
            .error (.missingBinding op.table.name column usage)) ∧
      ∀ e, (performAll a includes pre r).2 = .error e →
        (performAll a includes (pre ++ op :: post) r).2 = .error e := by
  have hvalues := fun column usage => @value?_performAll a includes pre r _ hnot column usage
  rw [performAll_append]
  generalize performAll a includes pre r = before at hvalues
  obtain ⟨r', e | _⟩ := before
  · exact ⟨rfl, fun hok => (by cases hok), fun _ he => he⟩
  · obtain ⟨column, usage, hlacks, hperform⟩ :=
      hop.perform_of_lacking ((MutationOperation.lacking_congr hvalues).2 hlacking)
    dsimp only
    rw [performAll, if_pos hincludes, hperform]
    exact ⟨rfl, fun _ => ⟨column, usage, (MutationOperation.lacks_congr hvalues).1 hlacks, rfl⟩,
      fun _ he => (by cases he)⟩

end Plan

namespace Executor

theorem execute_of_rank {x : Executor} (h : x.state.rank < 2) (a : ValuesAnalysis)
    (includes : TableMapping → Bool) (c : Connection) :
    (x.execute a includes c).2 = ((x.plan.perform a includes ⟨x.bindings, c⟩).1.connection,
      (x.plan.perform a includes ⟨x.bindings, c⟩).2) := by
  obtain ⟨plan, state, bindings⟩ := x
  cases state with
  | created | bound => rfl
  | executed | released => simp [ExecutorState.rank] at h

variable {d : Dialect} {m : MutationTarget} {mutation : MutationType} {g : MutationGroup}
  {x : Executor} {a : ValuesAnalysis} {includes : TableMapping → Bool}
  {pre post : List MutationOperation} {op : MutationOperation}

theorem execute_ofGroup (hplan : x.plan = .ofGroup g) (hstate : x.state.rank < 2) (c : Connection) :
    (x.execute a includes c).2 =
      ((Plan.performAll a includes g.operations ⟨x.bindings, c⟩).1.connection,
        (Plan.performAll a includes g.operations ⟨x.bindings, c⟩).2) := by
  obtain ⟨hconnection, hresult⟩ := Plan.perform_ofGroup (g := g) a includes ⟨x.bindings, c⟩
  rw [execute_of_rank hstate, hplan, hconnection, hresult]

/-- A column without a value fails the execution: with nothing run if no operation before its own
sends a statement, and otherwise once the operations before it have run theirs. -/
theorem execute_lacking (hbuild : MutationGroup.build d m mutation = .ok g)
    (hnames : (m.tables.map (·.name)).Nodup) (hplan : x.plan = .ofGroup g)
    (hstate : x.state.rank < 2) (hoperations : g.operations = pre ++ op :: post)
    (hincludes : includes op.table = true) (hlacking : op.Lacking a x.bindings)
    (hfirst : ∀ o ∈ pre, includes o.table = true → ¬ o.Lacking a x.bindings) (c : Connection) :
    let before := Plan.performAll a includes pre ⟨x.bindings, c⟩
    let after := (x.execute a includes c).2
    after.1 = before.1.connection ∧ (∃ e, after.2 = .error e) ∧
    (before.2 = .ok () → ∃ column usage, op.Lacks a x.bindings column usage ∧
      after.2 = .error (.missingBinding op.table.name column usage)) ∧
    (Plan.Idle a includes pre x.bindings → before.2 = .ok () ∧ after.1 = c) ∧
    (¬ Plan.Idle a includes pre x.bindings → after.1.sent ≠ c.sent) := by
  intro before after
  have hg : g.operations = MutationGroup.operationsOf d.capabilities.placeholder m mutation := by
    rw [MutationGroup.build_eq] at hbuild
    rw [← Except.ok.inj hbuild]
  have hresolves := @MutationGroup.resolvesFirst_operationsOf m mutation d.capabilities.placeholder
  have hnodup := @MutationGroup.nodup_operationsOf m mutation d.capabilities.placeholder hnames
  rw [← hg, hoperations] at hresolves hnodup
  rw [List.forall_mem_append, List.forall_mem_cons] at hresolves
  rw [List.map_append, List.map_cons, List.nodup_append] at hnodup
  obtain ⟨hpre, hop, -⟩ := hresolves
  obtain ⟨hnodup, -, hdisjoint⟩ := hnodup
  obtain ⟨hstop, hok, herror⟩ := @Plan.performAll_lacking a includes pre post op ⟨x.bindings, c⟩ hop
    hincludes (fun hmem => hdisjoint _ hmem _ (List.mem_cons_self ..) rfl) hlacking
  have hafter : after = (before.1.connection,
      (Plan.performAll a includes (pre ++ op :: post) ⟨x.bindings, c⟩).2) := by
    rw [← hstop, ← hoperations]
    exact execute_ofGroup hplan hstate c
  rw [hafter]
  refine ⟨rfl, ?_, hok, fun hidle => ?_, fun hidle => ?_⟩
  · cases hbefore : before.2 with
    | ok =>
      obtain ⟨column, usage, -, h⟩ := hok hbefore
      exact ⟨_, h⟩
    | error e => exact ⟨e, herror e hbefore⟩
  · exact (Plan.performAll_of_idle hnodup hpre hidle).symm
  · intro heq
    have hsent :=
      @Plan.sent_performAll_of_not_idle a includes pre ⟨x.bindings, c⟩ hnodup hpre hfirst hidle
    exact Nat.ne_of_gt hsent (congrArg List.length heq)

/-- A person without a value for the detail's key: the row of the person is inserted all the
same. -/
theorem execute_lacking_detail :
    let style := Dialect.sqlite.capabilities.placeholder
    let g : MutationGroup := ⟨.insert, Coordinator.personTarget,
      MutationGroup.operationsOf style Coordinator.personTarget .insert⟩
    let b : ValueBindings := ⟨.insert, "Person", (Plan.ofGroup g).resolve?, [("person",
      [⟨⟨"person", "id", .set, 1⟩, .int 1⟩, ⟨⟨"person", "name", .set, 2⟩, .text "Ada"⟩,
        ⟨⟨"person", "age", .set, 3⟩, .int 36⟩])]⟩
    let x : Executor := ⟨.ofGroup g, .bound, b⟩
    let c := Connection.start .sqlite [⟨"person", ["id", "name", "age"], ["id"], []⟩,
      ⟨"person_detail", ["person_id", "bio"], ["person_id"], []⟩]
    (x.execute .unknown (fun _ => true) c).2.1.sent ≠ c.sent ∧
      (x.execute .unknown (fun _ => true) c).2.1.database.map (·.rows) =
        [[[.int 1, .text "Ada", .int 36]], []] ∧
      ∃ column usage, (x.execute .unknown (fun _ => true) c).2.2 =
        .error (.missingBinding "person_detail" column usage) := by
  intro style g b x c
  let person : TableMapping := ⟨"person", none, ["id"], ["name", "age"], false⟩
  let detail : TableMapping := ⟨"person_detail", none, ["person_id"], ["bio"], true⟩
  have hlacking : (detail.insertOperation style).Lacking .unknown b :=
    ⟨"person_id", .set, ⟨_, rfl, by decide⟩, by decide⟩
  have hvalues : ∀ p ∈ person.needs .insert, b.value? "person" p.1 p.2 ≠ none := by decide
  have hperson : ¬ (person.insertOperation style).Lacking .unknown b := by
    rintro ⟨column, usage, ⟨mutation, hsends, hneeded⟩, hmissing⟩
    cases hsends
    exact hvalues _ hneeded hmissing
  have hbusy : ¬ Plan.Idle .unknown (fun _ => true) [person.insertOperation style] b := fun hidle => by
    cases hidle _ (List.mem_singleton_self _) rfl
  obtain ⟨-, -, hok, -, hsent⟩ := @execute_lacking .sqlite Coordinator.personTarget .insert g
    x .unknown (fun _ => true) [person.insertOperation style] []
    (detail.insertOperation style) (MutationGroup.build_eq .sqlite _ _) (by decide) rfl (by decide)
    rfl rfl hlacking (fun o ho _ => by rwa [List.mem_singleton.1 ho]) c
  obtain ⟨column, usage, -, herror⟩ := hok (by decide +kernel)
  exact ⟨hsent hbusy, by decide +kernel, column, usage, herror⟩

end Executor

end DialectSql
