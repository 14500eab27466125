import DialectSql.Proofs.Store.Keys

namespace DialectSql.Store

namespace Table

variable {t : Table} {row other : List SqlValue}

def place (t : Table) (column : String) : Nat := (t.position? column).getD 0

theorem position?_of_mem {c : String} (hc : c ∈ t.columns) :
    t.position? c = some (t.place c) ∧ t.columns[t.place c]? = some c := by
  have hsome : (t.position? c).isSome := by
    rw [position?, List.findIdx?_isSome, List.any_eq_true]
    exact ⟨c, hc, beq_self_eq_true c⟩
  obtain ⟨i, hi⟩ := Option.isSome_iff_exists.1 hsome
  have hplace : t.place c = i := by rw [place, hi, Option.getD_some]
  obtain ⟨hlt, hcolumn, -⟩ := List.findIdx?_eq_some_iff_getElem.1 hi
  rw [hplace, List.getElem?_eq_getElem hlt]
  exact ⟨hi, congrArg some (beq_iff_eq.1 hcolumn)⟩

theorem mem_of_position? {c : String} (h : (t.position? c).isSome) : c ∈ t.columns := by
  rw [position?, List.findIdx?_isSome, List.any_eq_true] at h
  obtain ⟨d, hd, hdc⟩ := h
  rwa [← beq_iff_eq.1 hdc]

theorem place_lt {c : String} (hc : c ∈ t.columns) : t.place c < t.columns.length :=
  (List.getElem?_eq_some_iff.1 (position?_of_mem hc).2).1

theorem place_inj {c d : String} (hc : c ∈ t.columns) (hd : d ∈ t.columns)
    (h : t.place c = t.place d) : c = d := by
  have hcolumn := (position?_of_mem hc).2
  rw [h, (position?_of_mem hd).2] at hcolumn
  exact (Option.some.inj hcolumn).symm

theorem cell_of_mem {c : String} (hc : c ∈ t.columns) (row : List SqlValue) :
    t.cell row c = row.getD (t.place c) .null := by
  rw [cell, (position?_of_mem hc).1]

theorem collides_eq (h : t.unique ≠ []) (a b : List SqlValue) :
    t.collides a b = sameKey (t.uniqueKey a) (t.uniqueKey b) := by
  have hunique : t.unique.isEmpty = false := by simpa using h
  rw [collides, hunique, zipWith_equalValues (by simp [uniqueKey])]
  rfl

/-- No two rows have the same key. -/
def Distinct (t : Table) (rows : List (List SqlValue)) : Prop :=
  rows.Pairwise fun a b => sameKey (t.uniqueKey a) (t.uniqueKey b) = false

instance (t : Table) (rows : List (List SqlValue)) : Decidable (t.Distinct rows) :=
  inferInstanceAs (Decidable (List.Pairwise _ _))

theorem insertRow_eq (h : t.unique ≠ [])
    (hrow : ∀ r ∈ t.rows, sameKey (t.uniqueKey row) (t.uniqueKey r) = false) :
    t.insertRow row = some { t with rows := t.rows ++ [row] } := by
  have hany : t.rows.any (t.collides row) = false := by
    rw [List.any_eq_false]
    intro r hr
    rw [collides_eq h, hrow r hr]
    exact Bool.false_ne_true
  rw [insertRow, hany]
  rfl

theorem eq_of_insertRow {t' : Table} (h : t.insertRow row = some t') :
    t' = { t with rows := t.rows ++ [row] } := by
  rw [insertRow] at h
  split at h
  · cases h
  · exact (Option.some.inj h).symm

theorem Distinct.append {rows : List (List SqlValue)} (h : t.Distinct rows)
    (hrow : ∀ r ∈ rows, sameKey (t.uniqueKey row) (t.uniqueKey r) = false) :
    t.Distinct (rows ++ [row]) := by
  refine List.pairwise_append.2 ⟨h, List.pairwise_singleton _ _, ?_⟩
  intro r hr s hs
  obtain rfl := List.mem_singleton.1 hs
  cases hsame : sameKey (t.uniqueKey r) (t.uniqueKey s) with
  | false => rfl
  | true => exact absurd (sameKey_symm hsame) (by simp [hrow r hr])

theorem Distinct.filter {rows : List (List SqlValue)} (h : t.Distinct rows)
    (p : List SqlValue → Bool) : t.Distinct (rows.filter p) :=
  List.Pairwise.sublist List.filter_sublist h

def changed (selected : List SqlValue → Bool) (change : List SqlValue → List SqlValue)
    (row : List SqlValue) : List SqlValue :=
  if selected row then change row else row

theorem map_changed_of_filter_eq_nil {selected : List SqlValue → Bool}
    {rows : List (List SqlValue)} (h : rows.filter selected = [])
    (change : List SqlValue → List SqlValue) : rows.map (changed selected change) = rows := by
  refine (List.map_congr_left fun row hrow => ?_).trans (List.map_id _)
  rw [changed, if_neg (List.filter_eq_nil_iff.1 h row hrow)]
  rfl

theorem distinct_map {f : List SqlValue → List SqlValue} {rows : List (List SqlValue)}
    (hf : ∀ r ∈ rows, t.uniqueKey (f r) = t.uniqueKey r) (h : t.Distinct rows) :
    t.Distinct (rows.map f) := by
  refine List.pairwise_map.2 (h.imp_of_mem fun ha hb hab => ?_)
  rw [hf _ ha, hf _ hb, hab]

theorem Distinct.not_collides {done rows : List (List SqlValue)} {row row' : List SqlValue}
    (h : t.Distinct (done ++ row :: rows)) (hunique : t.unique ≠ [])
    (hkey : t.uniqueKey row' = t.uniqueKey row) : (done ++ rows).any (t.collides row') = false := by
  obtain ⟨-, hrows, hcross⟩ := List.pairwise_append.1 h
  rw [List.any_eq_false]
  intro r hr
  rw [collides_eq hunique, hkey]
  rcases List.mem_append.1 hr with hr | hr
  · intro hsame
    have hne := hcross r hr row (List.mem_cons_self ..)
    rw [sameKey_symm hsame] at hne
    cases hne
  · rw [(List.pairwise_cons.1 hrows).1 r hr]
    exact Bool.false_ne_true

theorem Distinct.replace {done rows : List (List SqlValue)} {row row' : List SqlValue}
    (h : t.Distinct (done ++ row :: rows)) (hkey : t.uniqueKey row' = t.uniqueKey row) :
    t.Distinct (done ++ [row'] ++ rows) := by
  obtain ⟨hdone, hrows, hcross⟩ := List.pairwise_append.1 h
  obtain ⟨hrow, hrows⟩ := List.pairwise_cons.1 hrows
  rw [List.append_assoc]
  refine List.pairwise_append.2 ⟨hdone, List.pairwise_cons.2 ⟨fun r hr => ?_, hrows⟩, ?_⟩
  · rw [hkey]
    exact hrow r hr
  · intro d hd r hr
    rcases List.mem_cons.1 hr with rfl | hr
    · rw [hkey]
      exact hcross d hd row (List.mem_cons_self ..)
    · exact hcross d hd r (List.mem_cons_of_mem _ hr)

/-- A change that keeps the keys meets no other row. -/
theorem updateRows_eq {selected : List SqlValue → Bool} {change : List SqlValue → List SqlValue}
    (hunique : t.unique ≠ []) {done rows : List (List SqlValue)}
    (hkeys : ∀ r ∈ rows, selected r = true → t.uniqueKey (change r) = t.uniqueKey r)
    (hdistinct : t.Distinct (done ++ rows)) :
    t.updateRows selected change done rows = some (done ++ rows.map (changed selected change)) := by
  -- the rows behind the one that is changed are compared with it as they were before
  induction rows generalizing done with
  | nil => rw [updateRows, List.map_nil, List.append_nil]
  | cons row rows ih =>
      have hrest := fun r hr => hkeys r (List.mem_cons_of_mem _ hr)
      by_cases hselected : selected row = true
      · have hkey := hkeys row (List.mem_cons_self ..) hselected
        rw [updateRows, if_pos hselected]
        simp only [hdistinct.not_collides hunique hkey, Bool.false_eq_true, if_false]
        rw [ih hrest (hdistinct.replace hkey), List.map_cons, changed, if_pos hselected,
          List.append_assoc]
        rfl
      · rw [updateRows, if_neg hselected, ih hrest (hdistinct.replace rfl), List.map_cons, changed,
          if_neg hselected, List.append_assoc]
        rfl

theorem eq_of_updateRows {selected : List SqlValue → Bool} {change : List SqlValue → List SqlValue}
    {done rows rows' : List (List SqlValue)}
    (h : t.updateRows selected change done rows = some rows') :
    rows' = done ++ rows.map (changed selected change) := by
  induction rows generalizing done with
  | nil => rw [List.map_nil, List.append_nil, Option.some.inj h]
  | cons row rows ih =>
      rw [updateRows] at h
      rw [List.map_cons, changed]
      split at h
      · rename_i hselected
        dsimp only at h
        split at h
        · cases h
        · rw [ih h, if_pos hselected, List.append_assoc]
          rfl
      · rename_i hselected
        rw [ih h, if_neg hselected, List.append_assoc]
        rfl

theorem length_filter_key {rows : List (List SqlValue)} (h : t.Distinct rows) {key : List SqlValue}
    (hrow : ∃ r ∈ rows, sameKey (t.uniqueKey r) key = true) :
    (rows.filter fun r => sameKey (t.uniqueKey r) key).length = 1 := by
  induction rows with
  | nil =>
      obtain ⟨r, hr, -⟩ := hrow
      cases hr
  | cons a rows ih =>
      obtain ⟨ha, hrows⟩ := List.pairwise_cons.1 h
      by_cases hkey : sameKey (t.uniqueKey a) key = true
      · have hnone : rows.filter (fun r => sameKey (t.uniqueKey r) key) = [] := by
          rw [List.filter_eq_nil_iff]
          intro r hr hr'
          have hne := ha r hr
          rw [sameKey_trans hkey (sameKey_symm hr')] at hne
          cases hne
        rw [List.filter_cons, if_pos hkey, hnone]
        rfl
      · rw [List.filter_cons, if_neg hkey]
        refine ih hrows ?_
        obtain ⟨r, hr, hr'⟩ := hrow
        rcases List.mem_cons.1 hr with rfl | hr
        · exact absurd hr' hkey
        · exact ⟨r, hr, hr'⟩

def put (t : Table) (columns : List String) (values : List SqlValue) (row : List SqlValue) :
    List SqlValue :=
  (columns.zip values).foldl (fun row p => row.set (t.place p.1) p.2) row

theorem length_put (columns : List String) (values row : List SqlValue) :
    (t.put columns values row).length = row.length := by
  rw [put]
  induction columns.zip values generalizing row with
  | nil => rfl
  | cons p ps ih => rw [List.foldl_cons, ih, List.length_set]

theorem put_cons (c : String) (columns : List String) (v : SqlValue) (values row : List SqlValue) :
    t.put (c :: columns) (v :: values) row = t.put columns values (row.set (t.place c) v) := rfl

theorem cell_set_self {c : String} (hc : c ∈ t.columns) (hrow : row.length = t.columns.length)
    (v : SqlValue) : t.cell (row.set (t.place c) v) c = v := by
  have hlt : t.place c < row.length := by
    rw [hrow]
    exact place_lt hc
  rw [cell_of_mem hc, List.getD_eq_getElem?_getD, List.getElem?_set_self hlt, Option.getD_some]

theorem cell_set_of_ne {c d : String} (hc : c ∈ t.columns) (hd : d ∈ t.columns) (hne : c ≠ d)
    (v : SqlValue) : t.cell (row.set (t.place c) v) d = t.cell row d := by
  have hplace : t.place c ≠ t.place d := fun h => hne (place_inj hc hd h)
  rw [cell_of_mem hd, cell_of_mem hd, List.getD_eq_getElem?_getD, List.getD_eq_getElem?_getD,
    List.getElem?_set_ne hplace]

theorem cell_put_of_notMem {columns : List String} (hcolumns : ∀ c ∈ columns, c ∈ t.columns)
    {d : String} (hd : d ∈ t.columns) (hnot : d ∉ columns) (values row : List SqlValue) :
    t.cell (t.put columns values row) d = t.cell row d := by
  induction columns generalizing values row with
  | nil => rfl
  | cons c columns ih =>
      cases values with
      | nil => rfl
      | cons v values =>
          rw [put_cons, ih (fun e he => hcolumns e (List.mem_cons_of_mem _ he))
            (fun h => hnot (List.mem_cons_of_mem _ h))]
          refine cell_set_of_ne (hcolumns c (List.mem_cons_self ..)) hd ?_ v
          rintro rfl
          exact hnot (List.mem_cons_self ..)

theorem cell_put {columns : List String} (hcolumns : ∀ c ∈ columns, c ∈ t.columns)
    (hnodup : columns.Nodup) (hrow : row.length = t.columns.length) (f : String → SqlValue)
    {d : String} (hd : d ∈ columns) : t.cell (t.put columns (columns.map f) row) d = f d := by
  induction columns generalizing row with
  | nil => cases hd
  | cons c columns ih =>
      obtain ⟨hnot, hnodup⟩ := List.nodup_cons.1 hnodup
      have hrest := fun e he => hcolumns e (List.mem_cons_of_mem _ he)
      rw [List.map_cons, put_cons]
      by_cases hdc : d = c
      · subst hdc
        have hcell := hcolumns d (List.mem_cons_self ..)
        rw [cell_put_of_notMem hrest hcell hnot, cell_set_self hcell hrow]
      · refine ih hrest hnodup ?_ ((List.mem_cons.1 hd).resolve_left hdc)
        rw [List.length_set, hrow]

/-- A row of given values holds, for each column, the value that is named for it first. -/
theorem cell_rowOf {columns : List String} {values : List SqlValue} {c : String}
    (hc : c ∈ t.columns) : t.cell (Database.rowOf t columns values) c =
      ((columns.zip values).lookup c).getD .null := by
  rw [cell_of_mem hc, Database.rowOf, List.getD_eq_getElem?_getD, List.getElem?_map,
    (position?_of_mem hc).2]
  rfl

end Table

theorem lookup_zip_map (names : List String) (f : String → SqlValue) {n : String} (hn : n ∈ names) :
    (names.zip (names.map f)).lookup n = some (f n) := by
  induction names with
  | nil => cases hn
  | cons m names ih =>
      rw [List.map_cons, List.zip_cons_cons, List.lookup_cons]
      by_cases hnm : n = m
      · subst hnm
        rw [beq_self_eq_true]
      · rw [beq_false_of_ne hnm]
        exact ih ((List.mem_cons.1 hn).resolve_left hnm)

theorem lookup_zip_of_notMem {names : List String} {n : String} (hn : n ∉ names)
    (values : List SqlValue) : (names.zip values).lookup n = none := by
  induction names generalizing values with
  | nil => rfl
  | cons m names ih =>
      cases values with
      | nil => rfl
      | cons v values =>
          have hne : n ≠ m := by
            rintro rfl
            exact hn (List.mem_cons_self ..)
          rw [List.zip_cons_cons, List.lookup_cons, beq_false_of_ne hne]
          exact ih (fun h => hn (List.mem_cons_of_mem _ h)) values

/-- The values of pairwise different names, looked up in their order. -/
theorem map_lookup_zip {names : List String} (hnodup : names.Nodup) {values : List SqlValue}
    (hlength : names.length = values.length) (rest : List (String × SqlValue)) :
    names.map (fun n => ((names.zip values ++ rest).lookup n).getD .null) = values := by
  induction names generalizing values with
  | nil =>
      cases values with
      | nil => rfl
      | cons v values => cases hlength
  | cons n names ih =>
      cases values with
      | nil => cases hlength
      | cons v values =>
          obtain ⟨hnot, hnodup⟩ := List.nodup_cons.1 hnodup
          have htail : names.map (fun m => (((n, v) :: (names.zip values ++ rest)).lookup m).getD .null) =
              names.map fun m => ((names.zip values ++ rest).lookup m).getD .null := by
            refine List.map_congr_left fun m hm => ?_
            have hne : m ≠ n := by
              rintro rfl
              exact hnot hm
            rw [List.lookup_cons, beq_false_of_ne hne]
          rw [List.zip_cons_cons, List.map_cons, List.cons_append, htail,
            ih hnodup (Nat.succ.inj hlength), List.lookup_cons, beq_self_eq_true]
          rfl

/-- The key of a row is what is named for the key columns, as they come first. -/
theorem Table.key_rowOf {u : Table} {keys : List String} (hkeys : ∀ k ∈ keys, k ∈ u.columns)
    (hnodup : keys.Nodup) {id : List SqlValue} (hlength : keys.length = id.length)
    (columns : List String) (values : List SqlValue) :
    keys.map (u.cell (Database.rowOf u (keys ++ columns) (id ++ values))) = id := by
  rw [List.map_congr_left fun k hk => cell_rowOf (hkeys k hk), List.zip_append hlength]
  exact map_lookup_zip hnodup hlength _

end DialectSql.Store
