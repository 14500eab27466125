import DialectSql.Proofs.Entity.Guards

namespace DialectSql

open Store

namespace Plan

variable {m : MutationTarget} {root t : TableMapping} {p : Prop} {mutation : MutationType}
  {v : EntityValues} {r : Running} {style : PlaceholderStyle} {a : ValuesAnalysis}
  {includes : TableMapping → Bool} {ts : List TableMapping}

/-- What holds after each statement of one operation and of the rest, which still has its values. -/
theorem forall_states_cons {P : Database → Prop} (hnot : t.name ∉ ts.map (·.name))
    (hb : ∀ s ∈ ts, Coordinator.Bound mutation v r.bindings s)
    (hstates : includes t = true → ∀ db ∈ (t.operation style mutation).states a r, P db)
    (hrest : ∀ r', (∀ s ∈ ts, Coordinator.Bound mutation v r'.bindings s) →
      (includes t = true → (t.operation style mutation).perform a r = (r', .ok ())) →
      (includes t = false → r'.connection = r.connection) →
        ∀ db ∈ states a includes (ts.map (·.operation style mutation)) r', P db) :
    ∀ db ∈ states a includes ((t :: ts).map (·.operation style mutation)) r, P db := by
  have hleads {r' : Running} (h : r.Leads r' t.name) :
      ∀ s ∈ ts, Coordinator.Bound mutation v r'.bindings s := fun s hs =>
    (hb s hs).congr fun column usage => h.bindings s.name column usage fun heq =>
      hnot (List.mem_map.2 ⟨s, hs, heq⟩)
  have hperform := (t.operation style mutation).leads_perform a r
  rw [List.map_cons, states]
  rw [t.table_operation] at hperform ⊢
  cases hincludes : includes t with
  | true =>
      rw [if_pos rfl]
      refine List.forall_mem_append.2 ⟨hstates hincludes, ?_⟩
      cases hresult : (t.operation style mutation).perform a r with
      | mk r' result =>
          rw [hresult] at hperform
          cases result with
          | error e => exact fun db hdb => absurd hdb List.not_mem_nil
          | ok =>
              exact hrest r' (hleads hperform) (fun _ => hresult) fun h =>
                absurd (hincludes.symm.trans h) (by decide)
  | false =>
      rw [if_neg Bool.false_ne_true]
      exact hrest _ (hleads (.release r t.name))
        (fun h => absurd (hincludes.symm.trans h) (by decide)) fun _ => rfl

/-- The operations on the other tables, once the first table is done or left out. -/
theorem noOrphans_states (h : m.Rooted root)
    (hts : ∀ t ∈ ts, includes t = true → t ∈ m.tables.tail)
    (hnames : (ts.map (·.name)).Nodup) (hcolumns : mutation = .update → ∀ t ∈ ts, t.columns ≠ [])
    (hp : ∀ t ∈ ts, includes t = true → mutation = .insert ∨ mutation = .update ∧
      t.optional = true ∧ ValuesAnalysis.hasNonNullValue v t = true → p)
    (hb : ∀ t ∈ ts, Coordinator.Bound mutation v r.bindings t)
    (hdb : m.Guards root p (v.id.map storedValue) r.connection.database) :
    ∀ db ∈ states a includes (ts.map (·.operation style mutation)) r, m.NoOrphans db := by
  induction ts generalizing r with
  | nil => exact fun db hdb => absurd hdb List.not_mem_nil
  | cons t ts ih =>
      obtain ⟨hnot, hnames⟩ := List.nodup_cons.1 hnames
      rw [List.forall_mem_cons] at hts hp hb
      have hguards (hincludes : includes t = true) :
          ∀ db ∈ (t.operation style mutation).states a r,
            m.Guards root p (v.id.map storedValue) db :=
        MutationOperation.states_keep (TableMapping.guards_run h (hts.1 hincludes)
          (fun hupdate => hcolumns hupdate t (List.mem_cons_self ..)) (hp.1 hincludes) hb.1) hdb
      refine forall_states_cons hnot hb.2
        (fun hincludes db hmem => (hguards hincludes db hmem).noOrphans)
        fun r' hb' hperform hskip => ih hts.2 hnames
          (fun hupdate s hs => hcolumns hupdate s (List.mem_cons_of_mem _ hs)) hp.2 hb' ?_
      cases hincludes : includes t with
      | true =>
          have hkept := (t.replayed_operation style mutation).keep hdb (hguards hincludes)
          rwa [hperform hincludes] at hkept
      | false => rwa [hskip hincludes]

/-- The operation on the first table, and then those on the others. -/
theorem noOrphans_states_root (h : m.Rooted root) (hne : mutation ≠ .delete)
    (hincluded : includes root = true) (hts : ∀ t ∈ ts, t ∈ m.tables.tail)
    (hnames : ((root :: ts).map (·.name)).Nodup)
    (hcolumns : mutation = .update → ∀ t ∈ root :: ts, t.columns ≠ [])
    (hb : ∀ t ∈ root :: ts, Coordinator.Bound mutation v r.bindings t)
    (hdb : m.NoOrphans r.connection.database) :
    ∀ db ∈ states a includes ((root :: ts).map (·.operation style mutation)) r,
      m.NoOrphans db := by
  obtain ⟨hnot, hnames⟩ := List.nodup_cons.1 hnames
  rw [List.forall_mem_cons] at hb
  obtain ⟨hroot, hperformed⟩ := @MutationTarget.Rooted.operation m root mutation v r style a h hne
    (fun hupdate => hcolumns hupdate root (List.mem_cons_self ..)) hb.1 hdb
  exact forall_states_cons hnot hb.2 (fun _ => hroot) fun r' hb' hperform _ =>
    noOrphans_states h (fun t ht _ => hts t ht) hnames
      (fun hupdate t ht => hcolumns hupdate t (List.mem_cons_of_mem _ ht))
      (fun _ _ _ _ => trivial) hb' (hperformed r' (hperform hincluded))

/-- A deletion goes through the other tables before it comes to the first. -/
theorem noOrphans_states_delete (h : m.Rooted root) (hincludes : ∀ t, includes t = true)
    (hts : ∀ t ∈ ts, t ∈ m.tables.tail) (hnames : ((ts ++ [root]).map (·.name)).Nodup)
    (hb : ∀ t ∈ ts ++ [root], Coordinator.Bound .delete v r.bindings t)
    (hdb : m.NoOrphans r.connection.database)
    (hcleared : ∀ t ∈ m.tables.tail, t ∉ ts →
      t.Cleared r.connection.database (v.id.map storedValue)) :
    ∀ db ∈ states a includes ((ts ++ [root]).map (·.operation style .delete)) r,
      m.NoOrphans db := by
  induction ts generalizing r with
  | nil =>
      have hnone : ∀ s ∈ ([] : List TableMapping), Coordinator.Bound .delete v r.bindings s :=
        fun _ hs => absurd hs List.not_mem_nil
      rw [List.nil_append] at hb ⊢
      refine forall_states_cons List.not_mem_nil hnone (fun _ db hmem => ?_)
        fun _ _ _ _ db hmem => absurd hmem List.not_mem_nil
      have hstates : db ∈ r.states (root.deleteSql style) := hmem
      rw [Running.eq_of_mem_states hstates]
      exact h.run_delete (hb root (List.mem_singleton_self _)) hdb fun t ht =>
        hcleared t ht List.not_mem_nil
  | cons t ts ih =>
      rw [List.cons_append] at hnames hb ⊢
      obtain ⟨hnot, hnames⟩ := List.nodup_cons.1 hnames
      rw [List.forall_mem_cons] at hts hb
      have hguards : ∀ db ∈ (t.operation style .delete).states a r,
          m.Guards root False (v.id.map storedValue) db :=
        MutationOperation.states_keep (TableMapping.guards_run h hts.1 (fun heq => by cases heq)
          (by simp) hb.1) ⟨hdb, False.elim⟩
      refine forall_states_cons hnot hb.2 (fun _ db hmem => (hguards db hmem).noOrphans)
        fun r' hb' hperform _ => ih hts.2 hnames hb' ?_ fun s hs hnot => ?_
      · have hkept := (t.replayed_operation style .delete).keep ⟨hdb, False.elim⟩ hguards
        rw [hperform (hincludes t)] at hkept
        exact hkept.noOrphans
      · obtain ⟨hown, hothers⟩ :=
          TableMapping.cleared_of_perform h hts.1 hb.1 (hperform (hincludes t))
        by_cases heq : s = t
        · rwa [heq]
        · refine hothers s hs heq (hcleared s hs ?_)
          rw [List.mem_cons, not_or]
          exact ⟨heq, hnot⟩

end Plan

namespace Coordinator

/-- Where an update leaves out the first table but gives an optional one a value, the first table
holds a row for the identifier at that time. -/
def Anchored (m : MutationTarget) (root : TableMapping) :
    List (MutationType × EntityValues) → Connection → Prop
  | [], _ => True
  | (mutation, v) :: calls, c =>
    (mutation = .update → root.LeftOut v → m.Upserts v →
      root.Holds c.database (v.id.map storedValue)) ∧
    Anchored m root calls (mutate m mutation v c).1

variable {m : MutationTarget} {root : TableMapping} {mutation : MutationType} {v : EntityValues}
  {b b' : ValueBindings} {c : Connection}

theorem run_singleton (call : MutationType × EntityValues) (c : Connection) :
    run m [call] c = (mutate m call.1 call.2 c).1 := rfl

theorem bound_of_bindings (h : m.Rooted root) {style : PlaceholderStyle}
    (hbind : bindings m mutation v style = .ok b) :
    ((m.ordered mutation).map (·.name)).Nodup ∧ ∀ t ∈ m.ordered mutation, Bound mutation v b t := by
  obtain ⟨hok, herror⟩ := bindings_cases h.names h.keyed mutation v style
  by_cases hlength : ∀ t ∈ m.ordered mutation, t.keys.length = v.id.length
  · obtain ⟨b', hbind', hbound⟩ := hok hlength
    obtain rfl := Except.ok.inj (hbind.symm.trans hbind')
    exact ⟨names_ordered h.names mutation, hbound⟩
  · push Not at hlength
    obtain ⟨t, -, -, hbind'⟩ := herror hlength
    cases hbind.symm.trans hbind'

theorem includes_update (h : m.Rooted root) {t : TableMapping} (ht : t ∈ m.ordered .update) :
    includes .update (.analyze m v) t = ValuesAnalysis.isChanged v t :=
  ValuesAnalysis.includesUpdate_eq h.names (MutationTarget.mem_of_mem_ordered ht)

/-- An update without the first table, which has a row already if another table is to have one. -/
theorem noOrphans_states_leftOut (h : m.Rooted root) {style : PlaceholderStyle}
    (hout : root.LeftOut v) (hnames : ((m.ordered .update).map (·.name)).Nodup)
    (hb : ∀ t ∈ m.ordered .update, Bound .update v b t)
    (hdb : m.Guards root (m.Upserts v) (v.id.map storedValue) c.database) :
    ∀ db ∈ Plan.states (.analyze m v) (includes .update (.analyze m v))
      ((m.ordered .update).map (·.operation style .update)) ⟨b, c⟩, m.NoOrphans db := by
  have hcolumns : ∀ t ∈ m.ordered .update, t.columns ≠ [] := fun t => MutationTarget.columns_ne_nil
  refine @Plan.noOrphans_states m root (m.Upserts v) _ v ⟨b, c⟩ _ _ _ _ h ?_ hnames
    (fun _ => hcolumns) ?_ hb hdb
  · intro t ht hincluded
    have hmem := MutationTarget.mem_of_mem_ordered ht
    rw [includes_update h ht] at hincluded
    rw [h.tables_eq, List.mem_cons] at hmem
    refine hmem.resolve_left fun heq => ?_
    rw [heq] at ht hincluded
    rcases hout with hout | hout
    · exact hcolumns root ht hout
    · exact absurd (hincluded.symm.trans hout) (by decide)
  · rintro t ht hincluded (heq | ⟨-, hoptional, hvalue⟩)
    · cases heq
    · rw [includes_update h ht] at hincluded
      exact ⟨t, MutationTarget.mem_of_mem_ordered ht, hoptional, hincluded, hvalue⟩

/-- No statement of a call leaves an orphan. -/
theorem noOrphans_states (h : m.Rooted root) (hdb : m.NoOrphans c.database)
    (hanchored : mutation = .update → root.LeftOut v → m.Upserts v →
      root.Holds c.database (v.id.map storedValue)) :
    ∀ db ∈ states m mutation v c, m.NoOrphans db := by
  rw [states]
  split
  · exact fun db hdb => absurd hdb List.not_mem_nil
  rename_i b hbind
  obtain ⟨hnames, hb⟩ := bound_of_bindings h hbind
  rw [MutationGroup.operationsOf_eq]
  cases mutation with
  | insert =>
      rw [MutationTarget.ordered, h.tables_eq] at hnames hb ⊢
      refine Plan.noOrphans_states_root h (by decide) ?_ (fun t ht => ht) hnames
        (fun heq => by cases heq) hb hdb
      rw [includes, ValuesAnalysis.includesInsert, h.required]
      rfl
  | update =>
      by_cases hout : root.LeftOut v
      · exact noOrphans_states_leftOut h hout hnames hb ⟨hdb, hanchored rfl hout⟩
      · rw [TableMapping.LeftOut, not_or, Bool.not_eq_false] at hout
        have hordered := h.ordered_update hout.1
        have hincluded : includes .update (.analyze m v) root = true := by
          rw [includes_update h (by rw [hordered]; exact List.mem_cons_self ..), hout.2]
        have hcolumns : ∀ t ∈ m.ordered .update, t.columns ≠ [] := fun t =>
          MutationTarget.columns_ne_nil
        rw [hordered] at hnames hcolumns hb ⊢
        exact Plan.noOrphans_states_root h (by decide) hincluded
          (fun t ht => List.mem_of_mem_filter ht) hnames (fun _ => hcolumns) hb hdb
  | delete =>
      rw [MutationTarget.ordered, h.tables_eq, List.reverse_cons] at hnames hb ⊢
      exact Plan.noOrphans_states_delete h (fun _ => rfl) (fun t ht => List.mem_reverse.1 ht) hnames
        hb hdb fun t ht hnot => absurd (List.mem_reverse.2 ht) hnot

theorem noOrphans_of_anchored (h : m.Rooted root) {calls : List (MutationType × EntityValues)}
    (hdb : m.NoOrphans c.database) (hanchored : Anchored m root calls c) :
    ∀ db ∈ history m calls c, m.NoOrphans db := by
  induction calls generalizing c with
  | nil => exact fun db hdb => absurd hdb List.not_mem_nil
  | cons call calls ih =>
      obtain ⟨mutation, v⟩ := call
      obtain ⟨hcall, hcalls⟩ := hanchored
      have hstates := noOrphans_states h hdb hcall
      have hafter : m.NoOrphans (mutate m mutation v c).1.database :=
        List.forall_mem_cons.2 ⟨hdb, hstates⟩ _ (replays_mutate m mutation v c).database_mem
      exact List.forall_mem_append.2 ⟨hstates, ih hafter hcalls⟩

/-- A person that is as before, up to a new bio. -/
def adaWithNewBio : EntityValues :=
  ⟨[.int 1], [(("person", "name"), .text "Ada"), (("person", "age"), .int 36),
    (("person_detail", "bio"), .text "M")],
    [(("person", "name"), .text "Ada"), (("person", "age"), .int 36)]⟩

def emptyPersonDatabase : Database :=
  [⟨"person", ["id", "name", "age"], ["id"], []⟩,
    ⟨"person_detail", ["person_id", "bio"], ["person_id"], []⟩]

/-- The tables have names of their own and the first has a row for each entity, and still a call on
tables without rows leaves an orphan. -/
def LeavesOrphan (m : MutationTarget) (db : Database) (call : MutationType × EntityValues) : Prop :=
  (m.tables.map (·.name)).Nodup ∧ (∃ root ∈ m.identifierTable?, root.optional = false) ∧
    (∀ u ∈ db, u.rows = []) ∧ ¬ m.NoOrphans (run m [call] (.start .sqlite db)).database

end Coordinator

end DialectSql
