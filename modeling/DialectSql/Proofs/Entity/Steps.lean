import DialectSql.Proofs.Entity.Bindings
import DialectSql.Proofs.Entity.Representation

namespace DialectSql

open Store

def EntityValues.entity (v : EntityValues) : Entity := ⟨v.id, v.value⟩

namespace ValueBindings

variable {b : ValueBindings} {t : TableMapping}

theorem slotValues_of_map {names : List String} {usage : ParameterUsage} {values : List SqlValue}
    (h : names.map (fun n => b.value? t.name n usage) = values.map some) :
    b.slotValues (names.map (t.slot usage)) = .ok values := by
  induction names generalizing values with
  | nil =>
      cases values with
      | nil => rfl
      | cons x values => cases h
  | cons n names ih =>
      cases values with
      | nil => cases h
      | cons x values =>
          obtain ⟨hhead, htail⟩ := List.cons.inj h
          have hvalue : b.value? t.name n usage = some x := hhead
          have hrest := ih htail
          rw [slotValues] at hrest ⊢
          rw [List.map_cons, List.mapM_cons, TableMapping.slot, slotValue, hvalue, hrest]
          rfl

theorem slotValues_append {slots rest : List BindSlot} {xs ys : List SqlValue}
    (hslots : b.slotValues slots = .ok xs) (hrest : b.slotValues rest = .ok ys) :
    b.slotValues (slots ++ rest) = .ok (xs ++ ys) := by
  rw [slotValues] at hslots hrest ⊢
  rw [List.mapM_append, hslots, hrest]
  rfl

end ValueBindings

namespace Coordinator.Bound

variable {mutation : MutationType} {v : EntityValues} {b : ValueBindings} {t : TableMapping}

theorem length_eq (h : Bound mutation v b t) : t.keys.length = v.id.length := by
  simpa using congrArg List.length h.keys

theorem slotValues_keys (h : Bound mutation v b t) :
    b.slotValues (t.keys.map (t.slot (keyUsage mutation))) = .ok v.id :=
  ValueBindings.slotValues_of_map h.keys

theorem slotValues_columns (h : Bound mutation v b t) (hne : mutation ≠ .delete) :
    b.slotValues (t.columns.map (t.slot .set)) = .ok (t.columns.map (v.value t.name)) := by
  refine ValueBindings.slotValues_of_map ?_
  rw [List.map_map]
  exact List.map_congr_left (h.columns hne)

variable (style : PlaceholderStyle)

theorem slotValues_insertSql (h : Bound mutation v b t) (hne : mutation ≠ .delete) :
    b.slotValues (t.insertSql style (keyUsage mutation)).parameters =
      .ok (v.id ++ t.columns.map (v.value t.name)) := by
  rw [TableMapping.parameters_insertSql]
  exact ValueBindings.slotValues_append h.slotValues_keys (h.slotValues_columns hne)

theorem slotValues_updateSql (h : Bound .update v b t) :
    b.slotValues (t.updateSql style).parameters =
      .ok (t.columns.map (v.value t.name) ++ v.id) := by
  rw [TableMapping.parameters_updateSql]
  exact ValueBindings.slotValues_append (h.slotValues_columns (by decide)) h.slotValues_keys

theorem slotValues_deleteSql (h : Bound mutation v b t) (hne : mutation ≠ .insert) :
    b.slotValues (t.deleteSql style).parameters = .ok v.id := by
  have hslots := h.slotValues_keys
  rw [TableMapping.parameters_deleteSql]
  cases mutation with
  | insert => exact absurd rfl hne
  | update => exact hslots
  | delete => exact hslots

end Coordinator.Bound

theorem SqlValue.same_self {v : SqlValue} (h : IsStored v) : v.same v = true := by
  cases v with
  | float x =>
      have hnan : x.isNaN = false := by
        cases hx : x.isNaN with
        | false => rfl
        | true => simp [IsStored, storedValue, hx] at h
      exact Binary64.numericEq_self hnan
  | _ => simp [same]

namespace Running

/-- One table was written, and its values may have been released. -/
structure Writes (r r' : Running) (t : TableMapping) : Prop where
  others : ∀ n : TableName, n.name ≠ t.name →
    r'.connection.database.table? n = r.connection.database.table? n
  bindings : ∀ table column usage, table ≠ t.name →
    r'.bindings.value? table column usage = r.bindings.value? table column usage

theorem Writes.refl (r : Running) (t : TableMapping) : r.Writes r t :=
  ⟨fun _ _ => rfl, fun _ _ _ _ => rfl⟩

theorem Writes.trans {r₁ r₂ r₃ : Running} {t : TableMapping} (h : r₁.Writes r₂ t)
    (h' : r₂.Writes r₃ t) : r₁.Writes r₃ t where
  others n hn := (h'.others n hn).trans (h.others n hn)
  bindings table column usage hne := (h'.bindings table column usage hne).trans
    (h.bindings table column usage hne)

theorem Writes.release (r : Running) (t : TableMapping) : r.Writes (r.release t.name) t where
  others _ _ := rfl
  bindings _ column usage hne := ValueBindings.value?_release r.bindings hne column usage

variable {r : Running} {t : TableMapping} {u u' : Table} {M : List Entity} {v : EntityValues}

theorem run_ok {s : TranslatedSql} {values : List SqlValue} {command : Command} {count : Nat}
    (hu : r.connection.database.table? t.tableName = some u)
    (hvalues : r.bindings.slotValues s.parameters = .ok values)
    (hcommand : Command.ofText? s.sql = some command)
    (hchange : r.connection.database.change? values command =
      some (r.connection.database.replace u', count)) (hname : u'.name = u.name) :
    ∃ r', r.run s = (r', .ok count) ∧ r'.bindings = r.bindings ∧ r.Writes r' t ∧
      r'.connection.database.table? t.tableName = some u' := by
  have hexecute : r.connection.execute s.sql values =
      ({ r.connection.note s.sql values with database := r.connection.database.replace u' },
        .ok count) := by
    have hnoted : (r.connection.note s.sql values).database.change? values command =
        some (r.connection.database.replace u', count) := hchange
    simp only [Connection.execute, hcommand, Option.bind_eq_bind, Option.bind_some, hnoted]
  refine ⟨{ r with connection :=
    { r.connection.note s.sql values with database := r.connection.database.replace u' } },
    ?_, rfl, ⟨?_, fun _ _ _ _ => rfl⟩, Database.table?_replace_self hu hname⟩
  · rw [run, hvalues]
    simp only [hexecute]
  · intro n hn
    refine Database.table?_replace_of_ne ?_
    rw [hname, (Database.name_of_table? hu).2]
    exact hn

/-- The row that an insert writes stands for the entity. -/
theorem stands_rowOf (h : t.Fits u) (hnodup : (t.keys ++ t.columns).Nodup)
    (hlength : t.keys.length = v.id.length) (hid : ∀ x ∈ v.id, storedValue x ≠ .null) :
    v.entity.Stands t u (Database.rowOf u (t.keys ++ t.columns)
      ((v.id ++ t.columns.map (v.value t.name)).map storedValue)) := by
  obtain ⟨hkeys, hcolumns, hdisjoint⟩ := List.nodup_append.1 hnodup
  have hstored : t.keys.length = (v.id.map storedValue).length := by rwa [List.length_map]
  rw [List.map_append]
  constructor
  · rw [Table.key_rowOf (fun k hk => h.columns k (List.mem_append_left _ hk)) hkeys hstored]
    refine sameKey_self fun x hx => ?_
    obtain ⟨y, hy, rfl⟩ := List.mem_map.1 hx
    exact ⟨isStored_storedValue y, hid y hy⟩
  · intro c hc
    have hnot : c ∉ t.keys := fun hk => hdisjoint c hk c hc rfl
    rw [Table.cell_rowOf (h.columns c (List.mem_append_right _ hc)), List.zip_append hstored,
      List.lookup_append, lookup_zip_of_notMem hnot, List.map_map, lookup_zip_map t.columns _ hc]
    exact SqlValue.same_self (isStored_storedValue _)

theorem run_insert (hread : t.Readable) {mutation : MutationType} (hne : mutation ≠ .delete)
    (hu : r.connection.database.table? t.tableName = some u) (h : t.Represents u M)
    (hkeys : t.keys ≠ []) (hnodup : (t.keys ++ t.columns).Nodup)
    (hid : ∀ x ∈ v.id, storedValue x ≠ .null) (hnew : ∀ f ∈ M, f.hasId v.id = false)
    (hrow : v.entity.HasRow t) (hb : Coordinator.Bound mutation v r.bindings t) :
    ∃ r', r.run (t.insertSql .question (Coordinator.keyUsage mutation)) = (r', .ok 1) ∧
      r'.bindings = r.bindings ∧ r.Writes r' t ∧ t.HoldsIn r'.connection.database (M ++ [v.entity]) := by
  have hstands := stands_rowOf h.toFits hnodup hb.length_eq hid
  have hlength : (v.id ++ t.columns.map (v.value t.name)).length = (t.keys ++ t.columns).length := by
    simp [hb.length_eq]
  obtain ⟨hinsert, hrepresents⟩ := h.add (e := v.entity) hkeys hnew hrow hstands
    (by simp [Database.rowOf])
  obtain ⟨r', hrun, hbindings, hwrites, htable⟩ := run_ok hu (hb.slotValues_insertSql .question hne)
    ((TableMapping.command_insertSql hread (by simp [hkeys]) _).command_eq (by decide))
    (Database.change?_insert hu h.columns hlength hinsert) rfl
  exact ⟨r', hrun, hbindings, hwrites, _, htable, hrepresents⟩

theorem run_delete (hread : t.Readable) {mutation : MutationType} (hne : mutation ≠ .insert)
    (hu : r.connection.database.table? t.tableName = some u) (h : t.Represents u M)
    (hb : Coordinator.Bound mutation v r.bindings t) :
    ∃ r', r.run (t.deleteSql .question) =
        (r', .ok (u.rows.filter (Database.hasKey u t.keys v.id)).length) ∧
      r'.bindings = r.bindings ∧ r.Writes r' t ∧ t.HoldsIn r'.connection.database (withoutId M v.id) := by
  obtain ⟨r', hrun, hbindings, hwrites, htable⟩ := run_ok hu (hb.slotValues_deleteSql .question hne)
    ((TableMapping.command_deleteSql hread).command_eq (by decide))
    (Database.change?_delete hu (fun k hk => h.columns k (List.mem_append_left _ hk)) hb.length_eq)
    rfl
  exact ⟨r', hrun, hbindings, hwrites, _, htable, h.erase v.id⟩

theorem cell_update (h : t.Fits u) (hnodup : (t.keys ++ t.columns).Nodup) (row : List SqlValue) :
    (∀ k ∈ t.keys, u.cell (u.put t.columns ((t.columns.map (v.value t.name)).map storedValue) row) k =
        u.cell row k) ∧
      (row.length = u.columns.length → ∀ c ∈ t.columns,
        u.cell (u.put t.columns ((t.columns.map (v.value t.name)).map storedValue) row) c =
          storedValue (v.value t.name c)) := by
  obtain ⟨hkeys, hcolumns, hdisjoint⟩ := List.nodup_append.1 hnodup
  have hmem : ∀ c ∈ t.columns, c ∈ u.columns := fun c hc => h.columns c (List.mem_append_right _ hc)
  constructor
  · intro k hk
    exact Table.cell_put_of_notMem hmem (h.columns k (List.mem_append_left _ hk))
      (fun hc => hdisjoint k hk k hc rfl) _ row
  · intro hrow c hc
    rw [List.map_map]
    exact Table.cell_put hmem hcolumns hrow _ hc

/-- An update changes the row of an entity, if it has one, and otherwise nothing. -/
theorem run_update (hread : t.Readable)
    (hu : r.connection.database.table? t.tableName = some u) (h : t.Represents u M)
    (hkeys : t.keys ≠ []) (hcolumns : t.columns ≠ []) (hnodup : (t.keys ++ t.columns).Nodup)
    (hrow : v.entity.HasRow t) (hb : Coordinator.Bound .update v r.bindings t) :
    ∃ r' count, r.run (t.updateSql .question) = (r', .ok count) ∧ r'.bindings = r.bindings ∧
      r.Writes r' t ∧
      ((∃ f ∈ M, f.hasId v.id = true ∧ f.HasRow t) →
        count = 1 ∧ t.HoldsIn r'.connection.database (withoutId M v.id ++ [v.entity])) ∧
      ((∀ f ∈ M, f.hasId v.id = true → ¬ f.HasRow t) → count = 0 ∧ t.HoldsIn r'.connection.database M) := by
  have hcells := cell_update (v := v) h.toFits hnodup
  obtain ⟨r', hrun, hbindings, hwrites, htable⟩ := run_ok hu (hb.slotValues_updateSql .question)
    ((TableMapping.command_updateSql hread hcolumns).command_eq (by decide))
    (Database.change?_update hu (fun c hc => h.columns c (List.mem_append_right _ hc))
      (fun k hk => h.columns k (List.mem_append_left _ hk)) (by simp) hb.length_eq
      (h.updateRows hkeys fun row => (hcells row).1)) rfl
  refine ⟨r', _, hrun, hbindings, hwrites, ?_, ?_⟩
  · intro hpresent
    refine ⟨h.length_filter hpresent, _, htable, ?_⟩
    refine h.replace (e := v.entity) hrow hpresent (Table.length_put _ _) fun row hlength => ?_
    refine ⟨(hcells row).1, fun c hc => ?_⟩
    rw [(hcells row).2 hlength c hc]
    exact SqlValue.same_self (isStored_storedValue _)
  · intro habsent
    have hnone := h.filter_eq_nil habsent
    rw [Table.map_changed_of_filter_eq_nil hnone] at htable
    exact ⟨by rw [hnone]; rfl, u, htable, h⟩

end Running

end DialectSql
