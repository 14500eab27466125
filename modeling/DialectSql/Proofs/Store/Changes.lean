import DialectSql.Proofs.Store.Commands
import DialectSql.Proofs.Store.Rows

namespace DialectSql.Store

theorem mapM_eq_pure {m : Type → Type} [Monad m] [LawfulMonad m] {α β : Type} {f : α → m β}
    {g : α → β} {as : List α} (h : ∀ a ∈ as, f a = pure (g a)) :
    as.mapM f = pure (as.map g) := by
  induction as with
  | nil => rfl
  | cons a as ih =>
      rw [List.mapM_cons, h a (List.mem_cons_self ..),
        ih fun b hb => h b (List.mem_cons_of_mem _ hb), pure_bind, pure_bind]
      rfl

theorem isSome_of_mapM {α β : Type} {f : α → Option β} {as : List α} {bs : List β}
    (h : as.mapM f = some bs) : ∀ a ∈ as, (f a).isSome := by
  induction as generalizing bs with
  | nil => exact fun _ ha => absurd ha List.not_mem_nil
  | cons a as ih =>
      rw [List.mapM_cons] at h
      obtain ⟨b, hb, h⟩ := Option.bind_eq_some_iff.1 h
      obtain ⟨rest, hrest, -⟩ := Option.bind_eq_some_iff.1 h
      exact List.forall_mem_cons.2 ⟨Option.isSome_of_mem hb, ih hrest⟩

/-- Names whose numbers are the positions of their values among others. -/
theorem map_zipIdx_getElem? {α β : Type} (g : String → Option α → β) {names : List String}
    {values : List α} (hlength : names.length = values.length) (front rest : List α) :
    (names.zipIdx (front.length + 1)).map (fun p => g p.1 ((front ++ values ++ rest)[p.2 - 1]?)) =
      (names.zip values).map fun p => g p.1 (some p.2) := by
  induction names generalizing front values with
  | nil => rfl
  | cons n names ih =>
      cases values with
      | nil => cases hlength
      | cons v values =>
          have htail := ih (Nat.succ.inj hlength) (front ++ [v])
          rw [List.length_append, List.length_singleton, ← List.append_cons] at htail
          rw [List.zipIdx_cons, List.map_cons, htail, List.zip_cons_cons, List.map_cons,
            Nat.add_sub_cancel, List.append_assoc, List.getElem?_append_right (Nat.le_refl _),
            Nat.sub_self]
          rfl

theorem map_range'_getElem? {α : Type} (values : List α) :
    (List.range' 1 values.length).map (fun n => values[n - 1]?) = values.map some := by
  refine List.ext_getElem? fun i => ?_
  rw [List.getElem?_map, List.getElem?_map]
  by_cases hi : i < values.length
  · rw [List.getElem?_range' hi]
    simp [hi]
  · have hnone : (List.range' 1 values.length)[i]? = none := by
      rw [List.getElem?_eq_none_iff, List.length_range']
      omega
    rw [hnone, List.getElem?_eq_none_iff.2 (Nat.le_of_not_lt hi)]
    rfl

namespace Database

variable {db : Database} {n m : TableName} {t u : Table}

theorem name_of_table? (h : db.table? n = some t) :
    (n.schema.getD "main" == "main") = true ∧ t.name = n.name := by
  rw [table?] at h
  split at h
  · rename_i hschema
    exact ⟨hschema, beq_iff_eq.1 (List.find?_some h :)⟩
  · cases h

theorem find?_replace (db : Database) (n : TableName) (u : Table) :
    List.find? (fun w => w.name == n.name) (db.replace u) =
      (List.find? (fun w => w.name == n.name) db).map fun w => if w.name = u.name then u else w := by
  rw [replace, List.find?_map]
  congr 2
  funext w
  by_cases hw : w.name = u.name
  · simp [hw]
  · simp [hw]

theorem table?_replace_self (h : db.table? n = some t) (hu : u.name = t.name) :
    (db.replace u).table? n = some u := by
  obtain ⟨hschema, hname⟩ := name_of_table? h
  rw [table?, if_pos hschema] at h ⊢
  rw [find?_replace, h, Option.map_some, if_pos hu.symm]

theorem table?_replace_of_ne (hne : n.name ≠ u.name) : (db.replace u).table? n = db.table? n := by
  rw [table?, table?, find?_replace]
  split
  · cases hfind : List.find? (fun w => w.name == n.name) db with
    | none => rfl
    | some w =>
        have hname : w.name = n.name := beq_iff_eq.1 (List.find?_some hfind :)
        rw [Option.map_some, if_neg fun hw => hne (hname.symm.trans hw)]
  · rfl

theorem cells_bound (values : List SqlValue) :
    ((List.range' 1 values.length).map Term.bound).mapM (Scope.none.cell? values) =
      some (values.map fun v => .constant (storedValue v)) := by
  have hbound : ∀ i ∈ List.range' 1 values.length, (Scope.none.cell? values ∘ Term.bound) i =
      some (.constant (storedValue (values[i - 1]?.getD .null))) := fun _ _ => rfl
  have hvalues := congrArg
    (List.map fun v : Option SqlValue => Cell.constant (storedValue (v.getD .null)))
    (map_range'_getElem? values)
  rw [List.map_map, List.map_map] at hvalues
  rw [List.mapM_map, mapM_eq_pure hbound]
  exact congrArg some hvalues

theorem change?_insert_eq (hu : db.table? n = some u) {columns : List String}
    {values : List SqlValue} (hcolumns : ∀ c ∈ columns, c ∈ u.columns)
    (hlength : values.length = columns.length) :
    db.change? values (.insert n (.values (some columns) [(List.range' 1 columns.length).map .bound])) =
      (u.insertRow (rowOf u columns (values.map storedValue))).map fun t => (db.replace t, 1) := by
  have hnames : columns.all (fun c => (u.position? c).isSome) = true := by
    rw [List.all_eq_true]
    intro c hc
    rw [(Table.position?_of_mem (hcolumns c hc)).1]
    rfl
  have hcells := cells_bound values
  rw [hlength] at hcells
  have hrow : (values.map fun v => Cell.constant (storedValue v)).map (Cell.value []) =
      values.map storedValue := by
    rw [List.map_map]
    rfl
  have hrows : insertedRows u values (.values (some columns) [(List.range' 1 columns.length).map .bound]) =
      some [rowOf u columns (values.map storedValue)] := by
    rw [insertedRows, Option.getD_some, if_pos hnames, List.mapM_cons, List.mapM_nil,
      if_pos (by simp), hcells, ← hrow]
    rfl
  rw [change?, hu, Option.bind_eq_bind, Option.bind_some, hrows]
  simp only [Option.bind_eq_bind, Option.bind_some, Table.insertRows]
  cases u.insertRow (rowOf u columns (values.map storedValue)) <;> rfl

theorem change?_insert (hu : db.table? n = some u) {columns : List String} {values : List SqlValue}
    (hcolumns : ∀ c ∈ columns, c ∈ u.columns) (hlength : values.length = columns.length)
    (hinsert : u.insertRow (rowOf u columns (values.map storedValue)) = some t) :
    db.change? values (.insert n (.values (some columns) [(List.range' 1 columns.length).map .bound])) =
      some (db.replace t, 1) := by
  rw [change?_insert_eq hu hcolumns hlength, hinsert, Option.map_some]

/-- An insert that succeeds has added a row. -/
theorem insert_of_change? {db' : Database} {count : Nat} {columns : List String}
    {values : List SqlValue} (hlength : values.length = columns.length)
    (h : db.change? values
      (.insert n (.values (some columns) [(List.range' 1 columns.length).map .bound])) =
        some (db', count)) :
    ∃ u, db.table? n = some u ∧ (∀ c ∈ columns, c ∈ u.columns) ∧ count = 1 ∧
      db' = db.replace { u with rows := u.rows ++ [rowOf u columns (values.map storedValue)] } := by
  have hchange := h
  rw [change?] at h
  obtain ⟨u, hu, h⟩ := Option.bind_eq_some_iff.1 h
  obtain ⟨rows, hrows, -⟩ := Option.bind_eq_some_iff.1 h
  have hcolumns : ∀ c ∈ columns, c ∈ u.columns := by
    rw [insertedRows] at hrows
    split at hrows
    · rename_i hnames
      exact fun c hc => Table.mem_of_position? (List.all_eq_true.1 hnames c hc)
    · cases hrows
  rw [change?_insert_eq hu hcolumns hlength] at hchange
  obtain ⟨t, hinsert, heq⟩ := Option.map_eq_some_iff.1 hchange
  obtain rfl := Table.eq_of_insertRow hinsert
  obtain ⟨rfl, rfl⟩ := Prod.mk.inj heq
  exact ⟨u, hu, hcolumns, rfl, rfl⟩

def hasKey (u : Table) (keys : List String) (id : List SqlValue) (row : List SqlValue) : Bool :=
  sameKey (keys.map (u.cell row)) (id.map storedValue)

theorem holds_keys {keys : List String} (hkeys : ∀ k ∈ keys, k ∈ u.columns) {id : List SqlValue}
    (hlength : keys.length = id.length) :
    holds ((keys.zip id).map fun p => (.column (u.place p.1), .constant (storedValue p.2))) =
      hasKey u keys id := by
  funext row
  rw [holds, hasKey]
  induction keys generalizing id with
  | nil =>
      cases id with
      | nil => rfl
      | cons v id => cases hlength
  | cons k keys ih =>
      cases id with
      | nil => cases hlength
      | cons v id =>
          have hrest := ih (fun j hj => hkeys j (List.mem_cons_of_mem _ hj)) (Nat.succ.inj hlength)
          rw [List.zip_cons_cons, List.map_cons, List.all_cons, hrest, List.map_cons, List.map_cons,
            sameKey, Table.cell_of_mem (hkeys k (List.mem_cons_self ..))]
          rfl

theorem conditions?_keys {keys : List String} (hkeys : ∀ k ∈ keys, k ∈ u.columns)
    {id : List SqlValue} (hlength : keys.length = id.length) (front : List SqlValue) :
    Scope.conditions? ⟨some u, none⟩ (front ++ id) (Command.keyConditions keys (front.length + 1)) =
      some ((keys.zip id).map fun p => (.column (u.place p.1), .constant (storedValue p.2))) := by
  have hcells : ∀ p ∈ keys.zipIdx (front.length + 1),
      (do
        some (← Scope.cell? ⟨some u, none⟩ (front ++ id) (.column none p.1),
          ← Scope.cell? ⟨some u, none⟩ (front ++ id) (.bound p.2))) =
        some (Cell.column (u.place p.1),
          Cell.constant (storedValue ((front ++ id)[p.2 - 1]?.getD .null))) := by
    intro p hp
    have hcolumn := (Table.position?_of_mem (hkeys p.1 (List.fst_mem_of_mem_zipIdx hp))).1
    simp [Scope.cell?, Scope.answersTo, hcolumn]
  have hvalues := map_zipIdx_getElem? (fun k v => (Cell.column (u.place k),
    Cell.constant (storedValue (v.getD .null)))) hlength front []
  rw [List.append_nil] at hvalues
  rw [Scope.conditions?, Command.keyConditions, List.mapM_map]
  exact (mapM_eq_pure hcells).trans (congrArg some hvalues)

theorem columns_of_conditions? {keys : List String} {next : Nat} {values : List SqlValue}
    {conditions : List (Cell × Cell)}
    (h : Scope.conditions? ⟨some u, none⟩ values (Command.keyConditions keys next) =
      some conditions) : ∀ k ∈ keys, k ∈ u.columns := by
  rw [Scope.conditions?, Command.keyConditions, List.mapM_map] at h
  intro k hk
  rw [← List.zipIdx_map_fst next keys] at hk
  obtain ⟨p, hp, rfl⟩ := List.mem_map.1 hk
  obtain ⟨cells, hcells⟩ := Option.isSome_iff_exists.1 (isSome_of_mapM h p hp)
  obtain ⟨left, hleft, -⟩ := Option.bind_eq_some_iff.1 hcells
  obtain ⟨i, hi, -⟩ := Option.map_eq_some_iff.1 hleft
  exact Table.mem_of_position? (Option.isSome_of_mem hi)

theorem change?_delete (hu : db.table? n = some u) {keys : List String}
    (hkeys : ∀ k ∈ keys, k ∈ u.columns) {id : List SqlValue} (hlength : keys.length = id.length) :
    db.change? id (.delete n (Command.keyConditions keys 1)) =
      some (db.replace { u with rows := u.rows.filter fun row => !hasKey u keys id row },
        (u.rows.filter (hasKey u keys id)).length) := by
  have hconditions := conditions?_keys hkeys hlength []
  rw [change?, hu, Option.bind_eq_bind, Option.bind_some, delete?]
  simp only [List.nil_append, List.length_nil, Nat.zero_add] at hconditions
  rw [hconditions, Option.bind_eq_bind, Option.bind_some, holds_keys hkeys hlength]

/-- A deletion that succeeds has left the rows without the key. -/
theorem delete_of_change? {db' : Database} {count : Nat} {keys : List String}
    {id : List SqlValue} (hlength : keys.length = id.length)
    (h : db.change? id (.delete n (Command.keyConditions keys 1)) = some (db', count)) :
    ∃ u, db.table? n = some u ∧ (∀ k ∈ keys, k ∈ u.columns) ∧
      count = (u.rows.filter (hasKey u keys id)).length ∧
      db' = db.replace { u with rows := u.rows.filter fun row => !hasKey u keys id row } := by
  have hchange := h
  rw [change?] at h
  obtain ⟨u, hu, h⟩ := Option.bind_eq_some_iff.1 h
  obtain ⟨conditions, hconditions, -⟩ := Option.bind_eq_some_iff.1 h
  have hkeys := columns_of_conditions? hconditions
  rw [change?_delete hu hkeys hlength] at hchange
  obtain ⟨rfl, rfl⟩ := Prod.mk.inj (Option.some.inj hchange)
  exact ⟨u, hu, hkeys, rfl, rfl⟩

theorem assign_put (columns : List String) (values row : List SqlValue) :
    assign row ((columns.zip values).map fun p => (u.place p.1, .constant (storedValue p.2))) =
      u.put columns (values.map storedValue) row := by
  rw [assign, Table.put, List.foldl_map, List.zip_map_right, List.foldl_map]
  rfl

theorem change?_update_eq (hu : db.table? n = some u) {columns keys : List String}
    (hcolumns : ∀ c ∈ columns, c ∈ u.columns) (hkeys : ∀ k ∈ keys, k ∈ u.columns)
    {values id : List SqlValue} (hlength : columns.length = values.length)
    (hid : keys.length = id.length) :
    db.change? (values ++ id) (.update n ((columns.zipIdx 1).map fun p => (p.1, .bound p.2))
        (Command.keyConditions keys (columns.length + 1))) =
      (u.updateRows (hasKey u keys id) (u.put columns (values.map storedValue)) [] u.rows).map
        fun rows => (db.replace { u with rows }, (u.rows.filter (hasKey u keys id)).length) := by
  have hconditions := conditions?_keys hkeys hid values
  have hcells : ∀ p ∈ columns.zipIdx 1,
      (do
        some (← u.position? p.1, ← Scope.cell? ⟨some u, none⟩ (values ++ id) (.bound p.2))) =
        some (u.place p.1, Cell.constant (storedValue ((values ++ id)[p.2 - 1]?.getD .null))) := by
    intro p hp
    have hcolumn := (Table.position?_of_mem (hcolumns p.1 (List.fst_mem_of_mem_zipIdx hp))).1
    simp [Scope.cell?, hcolumn]
  have hvalues := map_zipIdx_getElem? (fun c v => (u.place c,
    Cell.constant (storedValue (v.getD .null)))) hlength [] id
  rw [← hlength] at hconditions
  rw [List.nil_append, List.length_nil, Nat.zero_add] at hvalues
  have hassign : (fun row => assign row ((columns.zip values).map fun p =>
      (u.place p.1, Cell.constant (storedValue p.2)))) = u.put columns (values.map storedValue) :=
    funext fun row => assign_put columns values row
  have hassignments : (((columns.zipIdx 1).map fun p => (p.1, Term.bound p.2)).mapM
      fun x => (u.position? x.1).bind fun i =>
        (Scope.cell? ⟨some u, none⟩ (values ++ id) x.2).bind fun c => some (i, c)) =
      some ((columns.zip values).map fun p => (u.place p.1, .constant (storedValue p.2))) := by
    rw [List.mapM_map]
    exact (mapM_eq_pure hcells).trans (congrArg some hvalues)
  rw [change?, hu, Option.bind_eq_bind, Option.bind_some, update?]
  simp only [hassignments, Option.bind_eq_bind, Option.bind_some, hconditions, holds_keys hkeys hid,
    hassign]
  cases u.updateRows (hasKey u keys id) (u.put columns (values.map storedValue)) [] u.rows <;> rfl

theorem change?_update (hu : db.table? n = some u) {columns keys : List String}
    (hcolumns : ∀ c ∈ columns, c ∈ u.columns) (hkeys : ∀ k ∈ keys, k ∈ u.columns)
    {values id : List SqlValue} (hlength : columns.length = values.length)
    (hid : keys.length = id.length) {rows : List (List SqlValue)}
    (hrows : u.updateRows (hasKey u keys id) (u.put columns (values.map storedValue)) [] u.rows =
      some rows) :
    db.change? (values ++ id) (.update n ((columns.zipIdx 1).map fun p => (p.1, .bound p.2))
        (Command.keyConditions keys (columns.length + 1))) =
      some (db.replace { u with rows }, (u.rows.filter (hasKey u keys id)).length) := by
  rw [change?_update_eq hu hcolumns hkeys hlength hid, hrows, Option.map_some]

/-- An update that succeeds has changed the rows with the key. -/
theorem update_of_change? {db' : Database} {count : Nat} {columns keys : List String}
    {values id : List SqlValue} (hlength : columns.length = values.length)
    (hid : keys.length = id.length)
    (h : db.change? (values ++ id) (.update n ((columns.zipIdx 1).map fun p => (p.1, .bound p.2))
        (Command.keyConditions keys (columns.length + 1))) = some (db', count)) :
    ∃ u, db.table? n = some u ∧ (∀ c ∈ columns, c ∈ u.columns) ∧ (∀ k ∈ keys, k ∈ u.columns) ∧
      count = (u.rows.filter (hasKey u keys id)).length ∧
      db' = db.replace { u with
        rows := u.rows.map (Table.changed (hasKey u keys id)
          (u.put columns (values.map storedValue))) } := by
  have hchange := h
  rw [change?] at h
  obtain ⟨u, hu, h⟩ := Option.bind_eq_some_iff.1 h
  obtain ⟨assignments, hassignments, h⟩ := Option.bind_eq_some_iff.1 h
  obtain ⟨conditions, hconditions, -⟩ := Option.bind_eq_some_iff.1 h
  have hkeys := columns_of_conditions? hconditions
  have hcolumns : ∀ c ∈ columns, c ∈ u.columns := by
    rw [List.mapM_map] at hassignments
    intro c hc
    rw [← List.zipIdx_map_fst 1 columns] at hc
    obtain ⟨p, hp, rfl⟩ := List.mem_map.1 hc
    obtain ⟨pair, hpair⟩ := Option.isSome_iff_exists.1 (isSome_of_mapM hassignments p hp)
    obtain ⟨i, hi, -⟩ := Option.bind_eq_some_iff.1 hpair
    exact Table.mem_of_position? (Option.isSome_of_mem hi)
  rw [change?_update_eq hu hcolumns hkeys hlength hid] at hchange
  obtain ⟨rows, hrows, heq⟩ := Option.map_eq_some_iff.1 hchange
  have hall := Table.eq_of_updateRows hrows
  rw [List.nil_append] at hall
  subst hall
  obtain ⟨rfl, rfl⟩ := Prod.mk.inj heq
  exact ⟨u, hu, hcolumns, hkeys, rfl, rfl⟩

end Database

end DialectSql.Store
