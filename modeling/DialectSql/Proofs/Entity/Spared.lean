import DialectSql.Proofs.Entity.Sending

namespace DialectSql

open Store

namespace Store

namespace Table

/-- The rows that have another key than an identifier; a null in it is equal to nothing. -/
def others (u : Table) (keys : List String) (id : List SqlValue) (rows : List (List SqlValue)) :
    List (List SqlValue) :=
  rows.filter fun row => !Database.hasKey u keys id row

/-- The rows with other keys than an identifier are as they were, in their order. Behind them may be
rows that were added under the identifier itself, where there is a null in it. -/
def Spares (u : Table) (keys : List String) (id : List SqlValue) (u' : Table) : Prop :=
  ∃ rows added, u' = { u with rows } ∧ u.others keys id rows = u.others keys id u.rows ++ added ∧
    ∀ row ∈ added, keys.map (u.cell row) = id.map storedValue

variable {u u₁ u₂ : Table} {keys : List String} {id row : List SqlValue}

theorem Spares.refl (u : Table) (keys : List String) (id : List SqlValue) : u.Spares keys id u :=
  ⟨u.rows, [], rfl, (List.append_nil _).symm, fun _ h => absurd h List.not_mem_nil⟩

theorem Spares.trans (h : u.Spares keys id u₁) (h' : u₁.Spares keys id u₂) :
    u.Spares keys id u₂ := by
  obtain ⟨rows, added, rfl, hrows, hadded⟩ := h
  obtain ⟨rows', added', rfl, hrows', hadded'⟩ := h'
  refine ⟨rows', added ++ added', rfl, ?_, List.forall_mem_append.2 ⟨hadded, hadded'⟩⟩
  rw [← List.append_assoc, ← hrows]
  exact hrows'

theorem Spares.mem (h : u.Spares keys id u₁) (hrow : row ∈ u.rows)
    (hkey : Database.hasKey u keys id row = false) : row ∈ u₁.rows := by
  obtain ⟨rows, added, rfl, hrows, -⟩ := h
  have hmem : row ∈ u.others keys id rows := by
    rw [hrows]
    exact List.mem_append_left _ (List.mem_filter.2 ⟨hrow, by rw [hkey]; rfl⟩)
  exact List.mem_of_mem_filter hmem

/-- A change of the rows that have the identifier, if it keeps their keys, leaves all others. -/
theorem others_map_changed {change : List SqlValue → List SqlValue}
    (hkeep : ∀ row, keys.map (u.cell (change row)) = keys.map (u.cell row))
    (rows : List (List SqlValue)) :
    u.others keys id (rows.map (changed (Database.hasKey u keys id) change)) =
      u.others keys id rows := by
  induction rows with
  | nil => rfl
  | cons row rows ih =>
      rw [others, others] at ih ⊢
      rw [List.map_cons, List.filter_cons, List.filter_cons, ih, changed]
      cases hkey : Database.hasKey u keys id row with
      | false => rw [if_neg Bool.false_ne_true, hkey]
      | true =>
          have hchanged : Database.hasKey u keys id (change row) = true := by
            rw [Database.hasKey, hkeep]
            exact hkey
          rw [if_pos rfl, hchanged]
          rfl

end Table

/-- Two names of one table: the schema that a name leaves out is the main one. -/
def TableName.Same (n m : TableName) : Prop :=
  n.schema.getD "main" = m.schema.getD "main" ∧ n.name = m.name

end Store

namespace MutationTarget

/-- All tables outside of a target are as they were, and within it all rows with other keys than an
identifier. -/
structure Spares (m : MutationTarget) (id : List SqlValue) (db db' : Database) : Prop where
  outside : ∀ n : TableName, (∀ t ∈ m.tables, ¬ n.Same t.tableName) → db'.table? n = db.table? n
  inside : ∀ t ∈ m.tables, Option.Rel (fun u u' => u.Spares t.keys id u')
    (db.table? t.tableName) (db'.table? t.tableName)

variable {m : MutationTarget} {t : TableMapping} {id : List SqlValue} {db db₁ db₂ : Database}
  {u : Table}

theorem Spares.refl (m : MutationTarget) (id : List SqlValue) (db : Database) :
    m.Spares id db db := by
  refine ⟨fun _ _ => rfl, fun t _ => ?_⟩
  cases db.table? t.tableName with
  | none => exact .none
  | some u => exact .some (.refl u t.keys id)

theorem Spares.trans (h : m.Spares id db db₁) (h' : m.Spares id db₁ db₂) : m.Spares id db db₂ where
  outside n hn := (h'.outside n hn).trans (h.outside n hn)
  inside t ht := by
    have hfirst := h.inside t ht
    have hsecond := h'.inside t ht
    generalize db.table? t.tableName = u, db₁.table? t.tableName = u₁,
      db₂.table? t.tableName = u₂ at hfirst hsecond
    cases hfirst with
    | none =>
        cases hsecond
        exact .none
    | some h =>
        cases hsecond with
        | some h' => exact .some (h.trans h')

theorem Spares.mem (h : m.Spares id db db₁) (ht : t ∈ m.tables)
    (hu : db.table? t.tableName = some u) {row : List SqlValue} (hrow : row ∈ u.rows)
    (hkey : Database.hasKey u t.keys id row = false) :
    ∃ u', db₁.table? t.tableName = some u' ∧ row ∈ u'.rows := by
  have hinside := h.inside t ht
  rw [hu] at hinside
  generalize db₁.table? t.tableName = u₁ at hinside ⊢
  cases hinside with
  | some hspares => exact ⟨_, rfl, hspares.mem hrow hkey⟩

/-- What is done to one table of the target is no matter to the others. -/
theorem spares_replace (hnames : (m.tables.map (·.name)).Nodup) (ht : t ∈ m.tables)
    (hu : db.table? t.tableName = some u) {rows : List (List SqlValue)}
    (h : u.Spares t.keys id { u with rows }) : m.Spares id db (db.replace { u with rows }) := by
  obtain ⟨hschema, hname⟩ := Database.name_of_table? hu
  refine ⟨fun n hn => ?_, fun s hs => ?_⟩
  · by_cases hsame : n.name = u.name
    -- the name is that of the table, so that its schema is not the main one
    · have hother : ¬ (n.schema.getD "main" == "main") = true := fun hmain =>
        hn t ht ⟨(beq_iff_eq.1 hmain).trans (beq_iff_eq.1 hschema).symm, hsame.trans hname⟩
      rw [Database.table?, Database.table?, if_neg hother, if_neg hother]
    · exact Database.table?_replace_of_ne hsame
  · by_cases hst : s = t
    · subst hst
      have htable : (db.replace { u with rows }).table? s.tableName = some { u with rows } :=
        Database.table?_replace_self hu rfl
      rw [hu, htable]
      exact .some h
    · have hne : s.tableName.name ≠ u.name := fun hsame =>
        hst (eq_of_name hnames hs ht (hsame.trans hname))
      rw [Database.table?_replace_of_ne (u := { u with rows }) hne]
      exact (Spares.refl m id db).inside s hs

end MutationTarget

namespace TableMapping

variable {m : MutationTarget} {t : TableMapping} {style : PlaceholderStyle} {v : EntityValues}
  {a : ValuesAnalysis} {mutation : MutationType}

theorem spares_execute {sql : String} {values : List SqlValue} {command : Option Command}
    {c : Connection} (hreads : ReadsAs style sql command)
    (hchange : ∀ read, command = some read → ∀ db count,
      c.database.change? values read = some (db, count) → m.Spares v.id c.database db) :
    m.Spares v.id c.database (c.execute sql values).1.database := by
  rcases c.execute_cases sql values with h | ⟨read, db, count, hread, hdb, h⟩
  · rw [h]
    exact .refl m v.id c.database
  · rw [h]
    exact hchange read (hreads.eq_of_some hread) db count hdb

section

variable (style) (hnames : (m.tables.map (·.name)).Nodup) (ht : t ∈ m.tables) (hread : t.Readable)
  (hlength : t.keys.length = v.id.length) (c : Connection)

include hnames ht hread hlength

/-- An insert adds a row that has the identifier as its key. -/
theorem spares_insertion (hkeyed : t.Keyed) (usage : ParameterUsage) :
    m.Spares v.id c.database
      (c.execute (t.insertion style v usage).sql (t.insertion style v usage).values).1.database := by
  by_cases hempty : t.keys ++ t.columns = []
  · have hnone : ReadsAs style (t.insertSql style usage).sql none :=
      .inl (command_insertSql_empty hread hempty usage)
    exact spares_execute hnone fun _ hcommand => by cases hcommand
  refine spares_execute (command_insertSql hread hempty usage)
    fun read hcommand db count hchange => ?_
  cases hcommand
  have hvalues : (v.id ++ t.columns.map (v.value t.name)).length = (t.keys ++ t.columns).length := by
    simp [hlength]
  obtain ⟨u, hu, hcolumns, -, rfl⟩ := Database.insert_of_change? hvalues hchange
  refine MutationTarget.spares_replace hnames ht hu
    ⟨_, _, rfl, List.filter_append .., fun row hrow => ?_⟩
  obtain rfl := List.mem_singleton.1 (List.mem_of_mem_filter hrow)
  rw [List.map_append]
  exact Table.key_rowOf (fun k hk => hcolumns k (List.mem_append_left _ hk)) hkeyed.nodup
    (by rw [List.length_map, hlength]) _ _

/-- An update leaves the keys as they are, and the rows that have other ones. -/
theorem spares_change (hkeyed : t.Keyed) (hcolumns : t.columns ≠ []) :
    m.Spares v.id c.database
      (c.execute (t.change style v).sql (t.change style v).values).1.database := by
  refine spares_execute (command_updateSql hread hcolumns) fun read hcommand db count hchange => ?_
  cases hcommand
  obtain ⟨u, hu, hcolumns, hkeys, -, rfl⟩ :=
    Database.update_of_change? (by simp) hlength hchange
  refine MutationTarget.spares_replace hnames ht hu
    ⟨_, [], rfl, ?_, fun _ h => absurd h List.not_mem_nil⟩
  rw [List.append_nil]
  refine Table.others_map_changed (fun row => List.map_congr_left fun k hk => ?_) u.rows
  exact Table.cell_put_of_notMem hcolumns (hkeys k hk) (hkeyed.disjoint k hk) _ row

/-- A deletion leaves the rows that have other keys. -/
theorem spares_removal :
    m.Spares v.id c.database
      (c.execute (t.removal style v).sql (t.removal style v).values).1.database := by
  refine spares_execute (command_deleteSql hread) fun read hcommand db count hchange => ?_
  cases hcommand
  obtain ⟨u, hu, -, -, rfl⟩ := Database.delete_of_change? hlength hchange
  refine MutationTarget.spares_replace hnames ht hu
    ⟨_, [], rfl, ?_, fun _ h => absurd h List.not_mem_nil⟩
  rw [List.append_nil, Table.others, Table.others, List.filter_filter]
  simp only [Bool.and_self]

/-- Whatever a call does for a table, it does for the identifier. -/
theorem spares_statements (hkeyed : t.Keyed) (hcolumns : mutation = .update → t.columns ≠ []) :
    ∀ s ∈ t.statements style v a mutation,
      m.Spares v.id c.database (c.execute s.sql s.values).1.database := by
  have hinsertion (usage : ParameterUsage) :=
    spares_insertion style hnames ht hread hlength c hkeyed usage
  have hremoval := spares_removal style hnames ht hread hlength c
  cases mutation with
  | insert => exact List.forall_mem_singleton.2 (hinsertion .set)
  | delete => exact List.forall_mem_singleton.2 hremoval
  | update =>
      have hchange := spares_change style hnames ht hread hlength c hkeyed (hcolumns rfl)
      intro s hs
      rw [statements] at hs
      split at hs
      · split at hs
        · rcases List.mem_append.1 hs with hs | hs
          · split at hs
            · obtain rfl := List.mem_singleton.1 hs
              exact hchange
            · cases hs
          · obtain rfl := List.mem_singleton.1 hs
            exact hinsertion .restrict
        · split at hs
          · obtain rfl := List.mem_singleton.1 hs
            exact hremoval
          · cases hs
      · obtain rfl := List.mem_singleton.1 hs
        exact hchange

end

end TableMapping

namespace Coordinator

variable {m : MutationTarget}

end Coordinator

end DialectSql
