import DialectSql.Proofs.Entity.Unbound

namespace DialectSql

open Store

namespace TableMapping

/-- The identifiers of the rows that a table holds. -/
def ids (t : TableMapping) (db : Database) : List (List SqlValue) :=
  match db.table? t.tableName with
  | some u => u.rows.map fun row => t.keys.map (u.cell row)
  | none => []

/-- A table holds a row for an identifier, in which nulls are alike. -/
def Holds (t : TableMapping) (db : Database) (id : List SqlValue) : Prop :=
  ∃ i ∈ t.ids db, sameRow i id = true

instance (t : TableMapping) (db : Database) (id : List SqlValue) : Decidable (t.Holds db id) :=
  inferInstanceAs (Decidable (∃ i ∈ t.ids db, _))

variable {t : TableMapping} {db db' : Database} {u : Table}

theorem ids_of_table? (hu : db.table? t.tableName = some u) :
    t.ids db = u.rows.map fun row => t.keys.map (u.cell row) := by
  rw [ids, hu]

theorem ids_congr (h : db'.table? t.tableName = db.table? t.tableName) : t.ids db' = t.ids db := by
  rw [ids, ids, h]

theorem ids_of_rows (h : ∀ u ∈ db, u.rows = []) : t.ids db = [] := by
  cases hu : db.table? t.tableName with
  | none => rw [ids, hu]
  | some u =>
      have hmem : u ∈ db := by
        rw [Database.table?] at hu
        split at hu
        · exact List.mem_of_find?_eq_some hu
        · cases hu
      rw [ids_of_table? hu, h u hmem, List.map_nil]

/-- The database is as it was, up to one table. -/
def Rewrites (t : TableMapping) (db db' : Database) : Prop :=
  ∀ n : TableName, n.name ≠ t.name → db'.table? n = db.table? n

theorem rewrites_replace (hu : db.table? t.tableName = some u) (rows : List (List SqlValue)) :
    t.Rewrites db (db.replace { u with rows }) ∧
      t.ids (db.replace { u with rows }) = rows.map fun row => t.keys.map (u.cell row) := by
  have htable : (db.replace { u with rows }).table? t.tableName = some { u with rows } :=
    Database.table?_replace_self hu rfl
  refine ⟨fun n hn => Database.table?_replace_of_ne ?_, ids_of_table? htable⟩
  change n.name ≠ u.name
  rw [(Database.name_of_table? hu).2]
  exact hn

end TableMapping

namespace Running

/-- A statement fails and changes nothing, or it leaves a table with some identifiers and counts
rows. -/
inductive Outcome (r : Running) (s : TranslatedSql) (t : TableMapping) (ids : List (List SqlValue))
    (count : Nat) : Prop
  | failed (e : MutationError) (hresult : (r.run s).2 = .error e)
      (hsame : (r.run s).1.connection.database = r.connection.database)
  | ran (hresult : (r.run s).2 = .ok count)
      (hothers : t.Rewrites r.connection.database (r.run s).1.connection.database)
      (hids : t.ids (r.run s).1.connection.database = ids)

variable {r : Running} {s : TranslatedSql} {t : TableMapping} {style : PlaceholderStyle}

theorem Outcome.keep {ids : List (List SqlValue)} {count : Nat} {P : Database → Prop}
    (h : r.Outcome s t ids count) (hP : P r.connection.database)
    (hran : ∀ db, t.Rewrites r.connection.database db → t.ids db = ids → P db) :
    P (r.run s).1.connection.database := by
  cases h with
  | failed e hresult hsame => rwa [hsame]
  | ran hresult hothers hids => exact hran _ hothers hids

theorem outcome_of_change {ids : List (List SqlValue)} {count : Nat} {values : List SqlValue}
    {command : Option Command} (hvalues : r.bindings.slotValues s.parameters = .ok values)
    (hreads : TableMapping.ReadsAs style s.sql command)
    (hchange : ∀ read, command = some read → ∀ db n,
      r.connection.database.change? values read = some (db, n) →
        n = count ∧ t.Rewrites r.connection.database db ∧ t.ids db = ids) :
    r.Outcome s t ids count := by
  have hrun : r.run s = ({ r with connection := (r.connection.execute s.sql values).1 },
      (r.connection.execute s.sql values).2) := by
    rw [run, hvalues]
  rcases r.connection.execute_cases s.sql values with hexecute |
    ⟨read, db, n, hread, hdb, hexecute⟩
  · rw [hexecute] at hrun
    exact .failed .database (by rw [hrun]) (by rw [hrun]; rfl)
  · rw [hexecute] at hrun
    obtain ⟨rfl, hothers, hids⟩ := hchange read (hreads.eq_of_some hread) db n hdb
    exact .ran (by rw [hrun]) (by rw [hrun]; exact hothers) (by rw [hrun]; exact hids)

variable {mutation : MutationType} {v : EntityValues}

/-- An insert adds a row for the identifier. -/
theorem outcome_insert (hread : t.Readable) (hkeyed : t.Keyed) (hne : mutation ≠ .delete)
    (hb : Coordinator.Bound mutation v r.bindings t) :
    r.Outcome (t.insertSql style (Coordinator.keyUsage mutation)) t
      (t.ids r.connection.database ++ [v.id.map storedValue]) 1 := by
  have hvalues := hb.slotValues_insertSql style hne
  by_cases hempty : t.keys ++ t.columns = []
  · have hnone : TableMapping.ReadsAs style
        (t.insertSql style (Coordinator.keyUsage mutation)).sql none :=
      .inl (TableMapping.command_insertSql_empty hread hempty _)
    exact outcome_of_change hvalues hnone fun _ hcommand => by cases hcommand
  · refine outcome_of_change hvalues (TableMapping.command_insertSql hread hempty _)
      fun read hcommand db n hchange => ?_
    cases hcommand
    have hlength : (v.id ++ t.columns.map (v.value t.name)).length =
        (t.keys ++ t.columns).length := by
      simp [hb.length_eq]
    obtain ⟨u, hu, hcolumns, rfl, rfl⟩ := Database.insert_of_change? hlength hchange
    obtain ⟨hothers, hids⟩ := TableMapping.rewrites_replace hu
      (u.rows ++ [Database.rowOf u (t.keys ++ t.columns)
        ((v.id ++ t.columns.map (v.value t.name)).map storedValue)])
    refine ⟨rfl, hothers, hids.trans ?_⟩
    have hstored : t.keys.length = (v.id.map storedValue).length := by
      rw [List.length_map, hb.length_eq]
    rw [TableMapping.ids_of_table? hu, List.map_append, List.map_singleton, List.map_append,
      Table.key_rowOf (fun k hk => hcolumns k (List.mem_append_left _ hk)) hkeyed.nodup hstored]

/-- The rows that have an identifier as their key. -/
theorem length_filter_ids {db : Database} {u : Table} (hu : db.table? t.tableName = some u)
    (id : List SqlValue) : (u.rows.filter (Database.hasKey u t.keys id)).length =
      ((t.ids db).filter fun i => sameKey i (id.map storedValue)).length := by
  rw [TableMapping.ids_of_table? hu, List.filter_map, List.length_map]
  rfl

/-- An update keeps the identifiers, and counts those rows that have the one it is for. -/
theorem outcome_update (hread : t.Readable) (hkeyed : t.Keyed) (hcolumns : t.columns ≠ [])
    (hb : Coordinator.Bound .update v r.bindings t) :
    r.Outcome (t.updateSql style) t (t.ids r.connection.database)
      ((t.ids r.connection.database).filter fun i => sameKey i (v.id.map storedValue)).length := by
  refine outcome_of_change (hb.slotValues_updateSql style)
    (TableMapping.command_updateSql hread hcolumns) fun read hcommand db n hchange => ?_
  cases hcommand
  obtain ⟨u, hu, hcolumns, hkeys, rfl, rfl⟩ :=
    Database.update_of_change? (by simp) hb.length_eq hchange
  obtain ⟨hothers, hids⟩ := TableMapping.rewrites_replace hu
    (u.rows.map (Table.changed (Database.hasKey u t.keys v.id)
      (u.put t.columns ((t.columns.map (v.value t.name)).map storedValue))))
  refine ⟨length_filter_ids hu v.id, hothers, hids.trans ?_⟩
  rw [TableMapping.ids_of_table? hu, List.map_map]
  refine List.map_congr_left fun row _ => List.map_congr_left fun k hk => ?_
  rw [Table.changed]
  split
  · exact Table.cell_put_of_notMem hcolumns (hkeys k hk) (hkeyed.disjoint k hk) _ row
  · rfl

/-- A deletion leaves the rows with other identifiers. -/
theorem outcome_delete (hread : t.Readable) (hne : mutation ≠ .insert)
    (hb : Coordinator.Bound mutation v r.bindings t) :
    r.Outcome (t.deleteSql style) t
      ((t.ids r.connection.database).filter fun i => !sameKey i (v.id.map storedValue))
      ((t.ids r.connection.database).filter fun i => sameKey i (v.id.map storedValue)).length := by
  refine outcome_of_change (hb.slotValues_deleteSql style hne)
    (TableMapping.command_deleteSql hread) fun read hcommand db n hchange => ?_
  cases hcommand
  obtain ⟨u, hu, -, rfl, rfl⟩ := Database.delete_of_change? hb.length_eq hchange
  obtain ⟨hothers, hids⟩ := TableMapping.rewrites_replace hu
    (u.rows.filter fun row => !Database.hasKey u t.keys v.id row)
  refine ⟨length_filter_ids hu v.id, hothers, hids.trans ?_⟩
  rw [TableMapping.ids_of_table? hu, List.filter_map]
  rfl

end Running

end DialectSql
