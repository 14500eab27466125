import DialectSql.Proofs.Entity.History
import DialectSql.Proofs.Entity.Identifiers

namespace DialectSql

open Store

namespace MutationTarget

/-- The tables have names of their own, which are names to the database, distinct key columns and no
value column among them; the first table has a row for each entity. -/
structure Rooted (m : MutationTarget) (root : TableMapping) : Prop where
  names : (m.tables.map (·.name)).Nodup
  first : m.identifierTable? = some root
  required : root.optional = false
  readable : m.Readable
  keyed : ∀ t ∈ m.tables, t.Keyed

/-- Whenever a table after the first holds a row for an identifier, so does the first. -/
def NoOrphans (m : MutationTarget) (db : Database) : Prop :=
  ∀ root ∈ m.identifierTable?, ∀ t ∈ m.tables.tail, ∀ i ∈ t.ids db, root.Holds db i

/-- An update with a changed value for an optional table, so that the table has to have a row. -/
def Upserts (m : MutationTarget) (v : EntityValues) : Prop :=
  ∃ t ∈ m.tables, t.optional = true ∧ ValuesAnalysis.isChanged v t = true ∧
    ValuesAnalysis.hasNonNullValue v t = true

instance (m : MutationTarget) (db : Database) : Decidable (m.NoOrphans db) :=
  inferInstanceAs (Decidable (∀ root ∈ m.identifierTable?, _))

instance (m : MutationTarget) (v : EntityValues) : Decidable (m.Upserts v) :=
  inferInstanceAs (Decidable (∃ t ∈ m.tables, _))

/-- There are no orphans; where `p` holds, the first table holds a row for an identifier. -/
structure Guards (m : MutationTarget) (root : TableMapping) (p : Prop) (id : List SqlValue)
    (db : Database) : Prop where
  noOrphans : m.NoOrphans db
  holds : p → root.Holds db id

end MutationTarget

namespace TableMapping

/-- An update leaves a table out that has no values, or whose values are the previous ones. -/
def LeftOut (t : TableMapping) (v : EntityValues) : Prop :=
  t.columns = [] ∨ ValuesAnalysis.isChanged v t = false

instance (t : TableMapping) (v : EntityValues) : Decidable (t.LeftOut v) :=
  inferInstanceAs (Decidable (_ ∨ _))

def Cleared (t : TableMapping) (db : Database) (id : List SqlValue) : Prop :=
  ∀ i ∈ t.ids db, sameKey i id = false

end TableMapping

namespace MutationTarget

variable {m : MutationTarget} {root t : TableMapping} {db db' : Database} {p : Prop}
  {id : List SqlValue} {mutation : MutationType}

namespace Rooted

variable (h : m.Rooted root)

include h

theorem tables_eq : m.tables = root :: m.tables.tail :=
  (List.head?_eq_some_iff.1 h.first).elim fun rest hrest => by rw [hrest, List.tail_cons]

theorem mem_root : root ∈ m.tables := List.mem_of_mem_head? h.first

theorem name_ne (ht : t ∈ m.tables.tail) : t.name ≠ root.name := by
  have hnames := h.names
  rw [h.tables_eq, List.map_cons, List.nodup_cons] at hnames
  exact fun heq => hnames.1 (List.mem_map.2 ⟨t, ht, heq⟩)

theorem ordered_update (hcolumns : root.columns ≠ []) :
    m.ordered .update = root :: m.tables.tail.filter fun t => !t.columns.isEmpty := by
  rw [ordered, h.tables_eq, List.filter_cons_of_pos (by simpa using hcolumns), List.tail_cons]

theorem noOrphans_iff :
    m.NoOrphans db ↔ ∀ t ∈ m.tables.tail, ∀ i ∈ t.ids db, root.Holds db i := by
  rw [NoOrphans, h.first]
  exact ⟨fun hdb => hdb root rfl, fun hdb s hs => by cases hs; exact hdb⟩

/-- A change of the first table has to keep the identifiers of the others. -/
theorem noOrphans_of_root (hrewrites : root.Rewrites db db')
    (hheld : ∀ t ∈ m.tables.tail, ∀ i ∈ t.ids db, root.Holds db' i) : m.NoOrphans db' := by
  refine h.noOrphans_iff.2 fun t ht i hi => hheld t ht i ?_
  rwa [TableMapping.ids_congr (hrewrites t.tableName (h.name_ne ht))] at hi

end Rooted

/-- A change of another table may add rows for an identifier that the first table holds. -/
theorem Guards.rewrites (hdb : m.Guards root p id db) (h : m.Rooted root) (ht : t ∈ m.tables.tail)
    (hrewrites : t.Rewrites db db') (hids : ∀ i ∈ t.ids db', i ∈ t.ids db ∨ p ∧ i = id) :
    m.Guards root p id db' := by
  have hroot : root.ids db' = root.ids db :=
    TableMapping.ids_congr (hrewrites root.tableName (h.name_ne ht).symm)
  have hholds {i : List SqlValue} (hi : root.Holds db i) : root.Holds db' i := by
    rwa [TableMapping.Holds, hroot]
  refine ⟨h.noOrphans_iff.2 fun s hs i hi => hholds ?_, fun hp => hholds (hdb.holds hp)⟩
  by_cases hname : s.name = t.name
  · obtain rfl := eq_of_name h.names (List.mem_of_mem_tail hs) (List.mem_of_mem_tail ht) hname
    rcases hids i hi with hi | ⟨hp, rfl⟩
    · exact h.noOrphans_iff.1 hdb.noOrphans s hs i hi
    · exact hdb.holds hp
  · rw [TableMapping.ids_congr (hrewrites s.tableName hname)] at hi
    exact h.noOrphans_iff.1 hdb.noOrphans s hs i hi

end MutationTarget

section Statements

variable {m : MutationTarget} {root t : TableMapping} {p : Prop} {mutation : MutationType}
  {v : EntityValues} {r : Running} {style : PlaceholderStyle}

namespace MutationTarget.Guards

theorem run_insert (hdb : m.Guards root p (v.id.map storedValue) r.connection.database)
    (h : m.Rooted root) (ht : t ∈ m.tables.tail) (hne : mutation ≠ .delete)
    (hb : Coordinator.Bound mutation v r.bindings t) (hp : p) :
    m.Guards root p (v.id.map storedValue)
      (r.run (t.insertSql style (Coordinator.keyUsage mutation))).1.connection.database := by
  have hmem := List.mem_of_mem_tail ht
  refine (Running.outcome_insert (h.readable t hmem) (h.keyed t hmem) hne hb).keep hdb
    fun db hrewrites hids => hdb.rewrites h ht hrewrites fun i hi => ?_
  rw [hids, List.mem_append, List.mem_singleton] at hi
  exact hi.imp_right fun hi => ⟨hp, hi⟩

theorem run_update (hdb : m.Guards root p (v.id.map storedValue) r.connection.database)
    (h : m.Rooted root) (ht : t ∈ m.tables.tail) (hcolumns : t.columns ≠ [])
    (hb : Coordinator.Bound .update v r.bindings t) :
    m.Guards root p (v.id.map storedValue) (r.run (t.updateSql style)).1.connection.database := by
  have hmem := List.mem_of_mem_tail ht
  refine (Running.outcome_update (h.readable t hmem) (h.keyed t hmem) hcolumns hb).keep hdb
    fun db hrewrites hids => hdb.rewrites h ht hrewrites fun i hi => ?_
  rw [hids] at hi
  exact .inl hi

theorem run_delete (hdb : m.Guards root p (v.id.map storedValue) r.connection.database)
    (h : m.Rooted root) (ht : t ∈ m.tables.tail) (hne : mutation ≠ .insert)
    (hb : Coordinator.Bound mutation v r.bindings t) :
    m.Guards root p (v.id.map storedValue) (r.run (t.deleteSql style)).1.connection.database := by
  refine (Running.outcome_delete (h.readable t (List.mem_of_mem_tail ht)) hne hb).keep hdb
    fun db hrewrites hids => hdb.rewrites h ht hrewrites fun i hi => ?_
  rw [hids] at hi
  exact .inl (List.mem_of_mem_filter hi)

end MutationTarget.Guards

/-- Of the statements for another table, only an insert needs the first table to hold a row. -/
theorem TableMapping.guards_run (h : m.Rooted root) (ht : t ∈ m.tables.tail)
    (hcolumns : mutation = .update → t.columns ≠ [])
    (hp : mutation = .insert ∨
      mutation = .update ∧ t.optional = true ∧ ValuesAnalysis.hasNonNullValue v t = true → p)
    (hb : Coordinator.Bound mutation v r.bindings t) :
    ∀ s ∈ (t.operation style mutation).statements r.bindings, ∀ r' : Running,
      r'.bindings = r.bindings →
        m.Guards root p (v.id.map storedValue) r'.connection.database →
          m.Guards root p (v.id.map storedValue) (r'.run s).1.connection.database := by
  intro s hs r' hbindings hdb
  have hbound := hb
  rw [← hbindings] at hb
  cases mutation with
  | insert =>
      change s ∈ [t.insertSql style (Coordinator.keyUsage .insert)] at hs
      rw [List.mem_singleton.1 hs]
      exact hdb.run_insert h ht (by decide) hb (hp (.inl rfl))
  | delete =>
      change s ∈ [t.deleteSql style] at hs
      rw [List.mem_singleton.1 hs]
      exact hdb.run_delete h ht (by decide) hb
  | update =>
      rw [operation, updateOperation] at hs
      split at hs
      · rename_i hoptional
        rw [MutationOperation.statements, OptionalUpdate.allNull_eq _ hbound] at hs
        cases hvalue : ValuesAnalysis.hasNonNullValue v t with
        | false =>
            simp only [hvalue, Bool.not_false, if_true, List.mem_singleton] at hs
            rw [hs]
            exact hdb.run_delete h ht (by decide) hb
        | true =>
            simp only [hvalue, Bool.not_true, Bool.false_eq_true, if_false, List.mem_cons,
              List.not_mem_nil, or_false] at hs
            rcases hs with rfl | rfl
            · exact hdb.run_update h ht (hcolumns rfl) hb
            · exact @MutationTarget.Guards.run_insert m root t p .update v r' style hdb h ht
                (by decide) hb (hp (.inr ⟨rfl, hoptional, hvalue⟩))
      · change s ∈ [t.updateSql style] at hs
        rw [List.mem_singleton.1 hs]
        exact hdb.run_update h ht (hcolumns rfl) hb

end Statements

/-- An operation that succeeds has run its statement, with the row count that it expects. -/
theorem PreparedOperation.ran_of_perform {op : PreparedOperation} {r r' : Running}
    {ids : List (List SqlValue)} {count : Nat}
    (houtcome : r.Outcome op.statement op.table ids count) (h : op.perform r = (r', .ok ())) :
    op.expectation.verify op.table.name count = .ok () ∧
      op.table.Rewrites r.connection.database r'.connection.database ∧
      op.table.ids r'.connection.database = ids := by
  have hconnection := op.connection_perform r
  rw [h] at hconnection
  rw [perform] at h
  rw [hconnection]
  cases houtcome with
  | failed e hresult hsame =>
      obtain ⟨r₁, hrun⟩ : ∃ r₁, r.run op.statement = (r₁, .error e) := ⟨_, Prod.ext rfl hresult⟩
      rw [hrun] at h
      cases h
  | ran hresult hothers hids =>
      obtain ⟨r₁, hrun⟩ : ∃ r₁, r.run op.statement = (r₁, .ok count) := ⟨_, Prod.ext rfl hresult⟩
      refine ⟨?_, hothers, hids⟩
      rw [hrun] at h
      exact congrArg Prod.snd h

section Operations

variable {m : MutationTarget} {root t : TableMapping} {p : Prop} {mutation : MutationType}
  {v : EntityValues} {r r' : Running} {style : PlaceholderStyle} {a : ValuesAnalysis}
  {includes : TableMapping → Bool} {ts : List TableMapping}

/-- A statement for the first table that keeps its identifiers, and must count the row that is
held. -/
theorem MutationTarget.Rooted.prepared (h : m.Rooted root) {s : TranslatedSql}
    {ids : List (List SqlValue)} {count : Nat} {id : List SqlValue}
    (houtcome : r.Outcome s root ids count) (hkept : ∀ i ∈ root.ids r.connection.database, i ∈ ids)
    (hheld : count = 1 → ∃ i ∈ ids, sameRow i id = true)
    (hdb : m.NoOrphans r.connection.database) :
    (∀ db ∈ r.states s, m.NoOrphans db) ∧
      ∀ r', PreparedOperation.perform ⟨root, mutation, s, some 1⟩ r = (r', .ok ()) →
        m.Guards root True id r'.connection.database := by
  have hran (db : Database) (hrewrites : root.Rewrites r.connection.database db)
      (hids : root.ids db = ids) : m.NoOrphans db := by
    refine h.noOrphans_of_root hrewrites fun t ht i hi => ?_
    obtain ⟨j, hj, hsame⟩ := h.noOrphans_iff.1 hdb t ht i hi
    exact ⟨j, by rw [hids]; exact hkept j hj, hsame⟩
  refine ⟨fun db hmem => ?_, fun r' hperform => ?_⟩
  · rw [Running.eq_of_mem_states hmem]
    exact houtcome.keep hdb hran
  · obtain ⟨hverify, hrewrites, hids⟩ := PreparedOperation.ran_of_perform houtcome hperform
    refine ⟨hran _ hrewrites hids, fun _ => ?_⟩
    have hcount : count = 1 := by
      rw [Expectation.verify] at hverify
      split at hverify
      · rename_i heq
        exact heq.symm
      · cases hverify
    rw [TableMapping.Holds, hids]
    exact hheld hcount

/-- A row of the first table is inserted or updated before all others. -/
theorem MutationTarget.Rooted.operation (h : m.Rooted root) (hne : mutation ≠ .delete)
    (hcolumns : mutation = .update → root.columns ≠ [])
    (hb : Coordinator.Bound mutation v r.bindings root) (hdb : m.NoOrphans r.connection.database) :
    (∀ db ∈ (root.operation style mutation).states a r, m.NoOrphans db) ∧
      ∀ r', (root.operation style mutation).perform a r = (r', .ok ()) →
        m.Guards root True (v.id.map storedValue) r'.connection.database := by
  have hread := h.readable root h.mem_root
  have hkeyed := h.keyed root h.mem_root
  cases mutation with
  | insert =>
      have hoperation : root.operation style .insert = .prepared
        ⟨root, .insert, root.insertSql style (Coordinator.keyUsage .insert), some 1⟩ := rfl
      have houtcome := @Running.outcome_insert r root style .insert v hread hkeyed hne hb
      rw [hoperation]
      refine h.prepared houtcome (fun i hi => List.mem_append_left _ hi) (fun _ => ?_) hdb
      refine ⟨_, List.mem_append_right _ (List.mem_singleton_self _), sameRow_self fun x hx => ?_⟩
      obtain ⟨y, -, rfl⟩ := List.mem_map.1 hx
      exact isStored_storedValue y
  | update =>
      have hoperation : root.operation style .update =
          .prepared ⟨root, .update, root.updateSql style, some 1⟩ := by
        rw [TableMapping.operation, TableMapping.updateOperation, if_neg (by simp [h.required])]
      rw [hoperation]
      refine h.prepared (Running.outcome_update hread hkeyed (hcolumns rfl) hb) (fun i hi => hi)
        (fun hcount => ?_) hdb
      obtain ⟨i, hi⟩ :=
        List.length_pos_iff_exists_mem.1 (Nat.lt_of_lt_of_eq Nat.one_pos hcount.symm)
      obtain ⟨hi, hkey⟩ := List.mem_filter.1 hi
      exact ⟨i, hi, sameRow_of_sameKey hkey⟩
  | delete => exact absurd rfl hne

/-- The row of the first table can go when no other table has one for its identifier. -/
theorem MutationTarget.Rooted.run_delete (h : m.Rooted root)
    (hb : Coordinator.Bound .delete v r.bindings root) (hdb : m.NoOrphans r.connection.database)
    (hcleared : ∀ t ∈ m.tables.tail, t.Cleared r.connection.database (v.id.map storedValue)) :
    m.NoOrphans (r.run (root.deleteSql style)).1.connection.database := by
  refine (Running.outcome_delete (h.readable root h.mem_root) (by decide) hb).keep hdb
    fun db hrewrites hids => h.noOrphans_of_root hrewrites fun t ht i hi => ?_
  obtain ⟨j, hj, hsame⟩ := h.noOrphans_iff.1 hdb t ht i hi
  refine ⟨j, ?_, hsame⟩
  rw [hids, List.mem_filter, Bool.not_eq_true']
  refine ⟨hj, Bool.eq_false_iff.2 fun hkey => ?_⟩
  -- otherwise the deleted identifier is also that of the other table's row
  have hkept := sameKey_trans (sameKey_symm (sameKey_of_sameRow hsame hkey)) hkey
  rw [hcleared t ht i hi] at hkept
  cases hkept

theorem TableMapping.cleared_of_perform (h : m.Rooted root) (ht : t ∈ m.tables.tail)
    (hb : Coordinator.Bound .delete v r.bindings t)
    (hperform : (t.operation style .delete).perform a r = (r', .ok ())) :
    t.Cleared r'.connection.database (v.id.map storedValue) ∧
      ∀ s ∈ m.tables.tail, s ≠ t → s.Cleared r.connection.database (v.id.map storedValue) →
        s.Cleared r'.connection.database (v.id.map storedValue) := by
  have hmem := List.mem_of_mem_tail ht
  obtain ⟨-, hrewrites, hids⟩ := PreparedOperation.ran_of_perform
    (Running.outcome_delete (h.readable t hmem) (by decide) hb) hperform
  refine ⟨fun i hi => ?_, fun s hs hne hcleared i hi => hcleared i ?_⟩
  · rw [hids, List.mem_filter, Bool.not_eq_true'] at hi
    exact hi.2
  · have hname : s.name ≠ t.name := fun heq =>
      hne (eq_of_name h.names (List.mem_of_mem_tail hs) hmem heq)
    rwa [ids_congr (hrewrites s.tableName hname)] at hi

end Operations

end DialectSql
