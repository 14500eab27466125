import DialectSql.Entity.Coordinator
import Mathlib.Data.List.Nodup

namespace DialectSql

/-- The key columns are distinct, and no value column is one of them. -/
structure TableMapping.Keyed (t : TableMapping) : Prop where
  nodup : t.keys.Nodup
  disjoint : ∀ k ∈ t.keys, k ∉ t.columns

instance (t : TableMapping) : Decidable t.Keyed :=
  decidable_of_iff (_ ∧ _) ⟨fun ⟨nodup, disjoint⟩ => ⟨nodup, disjoint⟩,
    fun h => ⟨h.nodup, h.disjoint⟩⟩

theorem TableMapping.keyed_of_nodup {t : TableMapping} (h : (t.keys ++ t.columns).Nodup) :
    t.Keyed := by
  obtain ⟨hkeys, -, hdisjoint⟩ := List.nodup_append.1 h
  exact ⟨hkeys, fun k hk hc => hdisjoint k hk k hc rfl⟩

namespace ValueBindings

variable {b b' : ValueBindings} {table column : String} {usage : ParameterUsage}

theorem find?_putValue {d : ValueDescriptor} (hcolumn : d.column = column) (husage : d.usage = usage)
    (x : SqlValue) (vs : List BindingValue) (c : String) (u : ParameterUsage) :
    ((putValue d column usage x vs).find? (isFor c u)).map (·.value) =
      if c = column ∧ u = usage then some x else (vs.find? (isFor c u)).map (·.value) := by
  have hfor (v : BindingValue) (hc : v.descriptor.column = column) (hu : v.descriptor.usage = usage) :
      isFor c u v = decide (c = column ∧ u = usage) := by
    rw [isFor, hc, hu]
    by_cases h : c = column ∧ u = usage
    · simp [h.1, h.2]
    · rw [decide_eq_false h, Bool.and_eq_false_iff, beq_eq_false_iff_ne, beq_eq_false_iff_ne]
      by_cases hcolumn : c = column
      · exact .inr fun hu => h ⟨hcolumn, hu.symm⟩
      · exact .inl fun hc => hcolumn hc.symm
  induction vs with
  | nil =>
      rw [putValue, List.find?_cons, hfor ⟨d, x⟩ hcolumn husage]
      by_cases h : c = column ∧ u = usage <;> simp [h]
  | cons v vs ih =>
      rw [putValue]
      by_cases hv : isFor column usage v = true
      · obtain ⟨hc, hu⟩ := Bool.and_eq_true_iff.1 hv
        have hhead := hfor v (beq_iff_eq.1 hc) (beq_iff_eq.1 hu)
        have hput := hfor { v with value := x } (beq_iff_eq.1 hc) (beq_iff_eq.1 hu)
        rw [if_pos hv, List.find?_cons, hput, List.find?_cons, hhead]
        by_cases h : c = column ∧ u = usage <;> simp [h]
      · rw [if_neg hv, List.find?_cons, List.find?_cons]
        cases hhead : isFor c u v with
        | true =>
            have hne : ¬ (c = column ∧ u = usage) := by
              rintro ⟨rfl, rfl⟩
              exact hv hhead
            rw [if_neg hne]
        | false => exact ih

theorem lookup_putGroup (table : String) (change : List BindingValue → List BindingValue)
    (groups : List (String × List BindingValue)) (t : String) :
    (putGroup table change groups).lookup t =
      if t = table then some (change ((groups.lookup table).getD [])) else groups.lookup t := by
  induction groups with
  | nil =>
      rw [putGroup, List.lookup_cons]
      by_cases ht : t = table
      · simp [ht]
      · simp [ht, beq_false_of_ne ht]
  | cons g groups ih =>
      obtain ⟨name, vs⟩ := g
      rw [putGroup]
      by_cases hname : name = table
      · subst hname
        rw [if_pos rfl, List.lookup_cons, List.lookup_cons, List.lookup_cons, beq_self_eq_true]
        by_cases ht : t = name
        · simp [ht]
        · simp [ht, beq_false_of_ne ht]
      · rw [if_neg hname, List.lookup_cons, List.lookup_cons, List.lookup_cons, ih,
          beq_false_of_ne (Ne.symm hname)]
        by_cases ht : t = name
        · subst ht
          simp [hname]
        · simp [beq_false_of_ne ht]

def Faithful (b : ValueBindings) : Prop :=
  ∀ table column usage d, b.resolve? table column usage = some d →
    d.column = column ∧ d.usage = usage

/-- A binding of a known column puts its value into the group of the table. -/
theorem bind_of_resolve? {d : ValueDescriptor} (hd : b.resolve? table column usage = some d)
    (x : SqlValue) : ∃ b', b.bind table column usage x = .ok b' ∧ b'.resolve? = b.resolve? ∧
      ∀ t, b'.group t =
        if t = table then putValue d column usage x (b.group table) else b.group t := by
  refine ⟨{ b with groups := putGroup table (putValue d column usage x) b.groups }, ?_, rfl, ?_⟩
  · rw [bind, hd]
  · intro t
    rw [group, lookup_putGroup]
    by_cases ht : t = table
    · subst ht
      rw [if_pos rfl, if_pos rfl, Option.getD_some, group]
    · rw [if_neg ht, if_neg ht, group]

theorem value?_bind (hf : b.Faithful) {x : SqlValue} (hr : (b.resolve? table column usage).isSome) :
    ∃ b', b.bind table column usage x = .ok b' ∧ b'.resolve? = b.resolve? ∧
      ∀ t c u, b'.value? t c u =
        if t = table ∧ c = column ∧ u = usage then some x else b.value? t c u := by
  obtain ⟨d, hd⟩ := Option.isSome_iff_exists.1 hr
  obtain ⟨hcolumn, husage⟩ := hf table column usage d hd
  obtain ⟨b', hbind, hresolve, hgroup⟩ := bind_of_resolve? hd x
  refine ⟨b', hbind, hresolve, fun t c u => ?_⟩
  rw [value?, hgroup, value?]
  by_cases ht : t = table
  · subst ht
    rw [if_pos rfl, find?_putValue hcolumn husage]
    simp
  · rw [if_neg ht, if_neg fun h => ht h.1]

theorem group_release (b : ValueBindings) (table t : String) :
    (b.release table).group t = if t = table then [] else b.group t := by
  have hlookup : (b.groups.filter fun g => g.1 != table).lookup t =
      if t = table then none else b.groups.lookup t := by
    induction b.groups with
    | nil => simp
    | cons g groups ih =>
        obtain ⟨name, vs⟩ := g
        by_cases hname : name = table
        · subst hname
          rw [List.filter_cons, if_neg (by simp), ih, List.lookup_cons]
          by_cases ht : t = name
          · rw [if_pos ht, if_pos ht]
          · rw [if_neg ht, if_neg ht, beq_false_of_ne ht]
        · rw [List.filter_cons, if_pos (by simpa using hname), List.lookup_cons, List.lookup_cons, ih]
          by_cases ht : t = name
          · subst ht
            rw [if_neg hname, if_neg hname]
          · rw [beq_false_of_ne ht]
  rw [group, release, hlookup]
  by_cases ht : t = table
  · rw [if_pos ht, if_pos ht, Option.getD_none]
  · rw [if_neg ht, if_neg ht, group]

theorem value?_release (b : ValueBindings) {t : String} (ht : t ≠ table) (c : String)
    (u : ParameterUsage) : (b.release table).value? t c u = b.value? t c u := by
  rw [value?, group_release, if_neg ht, value?]

end ValueBindings

namespace Coordinator

open ValueBindings

variable {m : MutationTarget} {mutation : MutationType} {v : EntityValues} {b : ValueBindings}

theorem bindAll_ok (table : String) (usage : ParameterUsage) (cells : List (String × SqlValue))
    (hf : b.Faithful) (hr : ∀ p ∈ cells, (b.resolve? table p.1 usage).isSome) :
    ∃ b', bindAll table usage cells b = .ok b' ∧ b'.resolve? = b.resolve? ∧
      (∀ t c u, t ≠ table ∨ u ≠ usage ∨ c ∉ cells.map (·.1) → b'.value? t c u = b.value? t c u) ∧
      ∀ p ∈ cells, (∀ q ∈ cells, q.1 = p.1 → q.2 = p.2) → b'.value? table p.1 usage = some p.2 := by
  induction cells generalizing b with
  | nil => exact ⟨b, rfl, rfl, fun _ _ _ _ => rfl, fun _ hp => by cases hp⟩
  | cons cell cells ih =>
      obtain ⟨column, x⟩ := cell
      obtain ⟨b₁, hbind, hresolve, hvalue⟩ :=
        value?_bind (x := x) hf (hr (column, x) (List.mem_cons_self ..))
      have hf₁ : b₁.Faithful := by
        rw [Faithful, hresolve]
        exact hf
      obtain ⟨b₂, hall, hresolve₂, hothers, hown⟩ := ih hf₁ fun p hp => by
        rw [hresolve]
        exact hr p (List.mem_cons_of_mem _ hp)
      refine ⟨b₂, ?_, hresolve₂.trans hresolve, ?_, ?_⟩
      · rw [bindAll, hbind]
        exact hall
      · intro t c u h
        have hrest : t ≠ table ∨ u ≠ usage ∨ c ∉ cells.map (·.1) :=
          h.imp id (.imp id fun hc hmem => hc (List.mem_cons_of_mem _ hmem))
        rw [hothers t c u hrest, hvalue t c u, if_neg]
        rintro ⟨rfl, rfl, rfl⟩
        rcases h with h | h | h
        · exact h rfl
        · exact h rfl
        · exact h (List.mem_cons_self ..)
      · intro p hp hsame
        have hrest : ∀ q ∈ cells, q.1 = p.1 → q.2 = p.2 := fun q hq =>
          hsame q (List.mem_cons_of_mem _ hq)
        by_cases hagain : p.1 ∈ cells.map (·.1)
        · obtain ⟨q, hq, hcolumn⟩ := List.mem_map.1 hagain
          have hq₂ := hrest q hq hcolumn
          rw [← hcolumn, ← hq₂]
          exact hown q hq fun o ho heq => (hrest o ho (heq.trans hcolumn)).trans hq₂.symm
        · rcases List.mem_cons.1 hp with rfl | hp
          · rw [hothers table column usage (.inr (.inr hagain)), hvalue, if_pos ⟨rfl, rfl, rfl⟩]
          · exact absurd (List.mem_map_of_mem hp) hagain

structure Bound (mutation : MutationType) (v : EntityValues) (b : ValueBindings) (t : TableMapping) :
    Prop where
  keys : t.keys.map (fun k => b.value? t.name k (keyUsage mutation)) = v.id.map some
  columns : mutation ≠ .delete → ∀ c ∈ t.columns, b.value? t.name c .set = some (v.value t.name c)

theorem Bound.congr {b' : ValueBindings} {t : TableMapping} (h : Bound mutation v b t)
    (hb : ∀ c u, b'.value? t.name c u = b.value? t.name c u) : Bound mutation v b' t where
  keys := by simpa only [hb] using h.keys
  columns hne c hc := (hb c .set).trans (h.columns hne c hc)

/-- The columns of a table that a mutation binds are known. -/
structure Resolved (mutation : MutationType) (b : ValueBindings) (t : TableMapping) : Prop where
  keys : ∀ k ∈ t.keys, (b.resolve? t.name k (keyUsage mutation)).isSome
  columns : mutation ≠ .delete → ∀ c ∈ t.columns, (b.resolve? t.name c .set).isSome

theorem map_eq_of_zip {f : String → Option SqlValue} {keys : List String} {id : List SqlValue}
    (hlength : keys.length = id.length) (h : ∀ p ∈ keys.zip id, f p.1 = some p.2) :
    keys.map f = id.map some :=
  calc keys.map f = ((keys.zip id).map (·.1)).map f := by
        rw [List.map_fst_zip (Nat.le_of_eq hlength)]
    _ = (keys.zip id).map fun p => some p.2 := by
        rw [List.map_map]
        exact List.map_congr_left h
    _ = ((keys.zip id).map (·.2)).map some := by
        rw [List.map_map]
        rfl
    _ = id.map some := by
        rw [List.map_snd_zip (Nat.le_of_eq hlength.symm)]

/-- Binding the key of a table gives its columns the identifier. -/
theorem bindKeys_ok {t : TableMapping} (hf : b.Faithful) (hlength : t.keys.length = v.id.length)
    (hkeyed : t.Keyed) (hr : Resolved mutation b t) :
    ∃ b', bindAll t.name (keyUsage mutation) (t.keys.zip v.id) b = .ok b' ∧
      b'.resolve? = b.resolve? ∧
      (∀ n c u, n ≠ t.name → b'.value? n c u = b.value? n c u) ∧
      t.keys.map (fun k => b'.value? t.name k (keyUsage mutation)) = v.id.map some := by
  have hnodup : ((t.keys.zip v.id).map (·.1)).Nodup := by
    rw [List.map_fst_zip (Nat.le_of_eq hlength)]
    exact hkeyed.nodup
  obtain ⟨b', hbind, hresolve, hothers, hown⟩ := bindAll_ok t.name
    (keyUsage mutation) (t.keys.zip v.id) hf fun p hp => hr.keys p.1 (List.of_mem_zip hp).1
  refine ⟨b', hbind, hresolve, fun n c u hn => hothers n c u (.inl hn), ?_⟩
  exact map_eq_of_zip hlength fun p hp => hown p hp fun q hq hcolumn =>
    congrArg Prod.snd (List.inj_on_of_nodup_map hnodup hq hp hcolumn)

/-- Binding the other columns of a table leaves the key as it is. -/
theorem bindColumns_ok {t : TableMapping} (hf : b.Faithful)
    (hr : ∀ c ∈ t.columns, (b.resolve? t.name c .set).isSome) :
    ∃ b', bindAll t.name .set (t.columns.map fun c => (c, v.value t.name c)) b = .ok b' ∧
      b'.resolve? = b.resolve? ∧
      (∀ n c u, n ≠ t.name ∨ c ∉ t.columns → b'.value? n c u = b.value? n c u) ∧
      ∀ c ∈ t.columns, b'.value? t.name c .set = some (v.value t.name c) := by
  have hnames : (t.columns.map fun c => (c, v.value t.name c)).map (·.1) = t.columns := by
    rw [List.map_map]
    exact List.map_id _
  obtain ⟨b', hbind, hresolve, hothers, hown⟩ := bindAll_ok t.name .set
    (t.columns.map fun c => (c, v.value t.name c)) hf (List.forall_mem_map.2 hr)
  rw [hnames] at hothers
  refine ⟨b', hbind, hresolve, fun n c u h => hothers n c u (h.imp_right .inr), ?_⟩
  intro c hc
  refine hown (c, v.value t.name c) (List.mem_map_of_mem hc) fun q hq hcolumn => ?_
  obtain ⟨n, -, rfl⟩ := List.mem_map.1 hq
  exact congrArg (v.value t.name) hcolumn

theorem bindTable_ok {t : TableMapping} (hf : b.Faithful) (hlength : t.keys.length = v.id.length)
    (hkeyed : t.Keyed) (hr : Resolved mutation b t) :
    ∃ b', bindTable m mutation v t b = .ok b' ∧ b'.resolve? = b.resolve? ∧
      (∀ n c u, n ≠ t.name → b'.value? n c u = b.value? n c u) ∧ Bound mutation v b' t := by
  obtain ⟨b₁, hbind, hresolve, hothers, hids⟩ := bindKeys_ok hf hlength hkeyed hr
  rw [bindTable, if_neg (not_not_intro hlength), hbind]
  by_cases hdelete : mutation = .delete
  · refine ⟨b₁, ?_, hresolve, hothers, hids, fun hne => absurd hdelete hne⟩
    simp only [hdelete, if_true]
    rfl
  · have hf₁ : b₁.Faithful := by
      rw [Faithful, hresolve]
      exact hf
    obtain ⟨b₂, hbind₂, hresolve₂, hothers₂, hown⟩ := bindColumns_ok hf₁ fun c hc => by
      rw [hresolve]
      exact hr.columns hdelete c hc
    refine ⟨b₂, ?_, hresolve₂.trans hresolve, fun n c u hn => ?_, ?_, fun _ => hown⟩
    · simp only [if_neg hdelete]
      exact hbind₂
    · rw [hothers₂ n c u (.inl hn), hothers n c u hn]
    -- no key is a column, so that binding the columns leaves the keys as they are
    · rw [← hids]
      exact List.map_congr_left fun k hk => hothers₂ _ _ _ (.inr (hkeyed.disjoint k hk))

theorem bindTables_ok {ts : List TableMapping} (hf : b.Faithful)
    (hnames : (ts.map (·.name)).Nodup) (hlength : ∀ t ∈ ts, t.keys.length = v.id.length)
    (hkeyed : ∀ t ∈ ts, t.Keyed) (hr : ∀ t ∈ ts, Resolved mutation b t) :
    ∃ b', bindTables m mutation v ts b = .ok b' ∧
      (∀ n c u, n ∉ ts.map (·.name) → b'.value? n c u = b.value? n c u) ∧
      ∀ t ∈ ts, Bound mutation v b' t := by
  induction ts generalizing b with
  | nil => exact ⟨b, rfl, fun _ _ _ _ => rfl, fun _ h => by cases h⟩
  | cons t ts ih =>
      obtain ⟨hnot, hnames⟩ := List.nodup_cons.1 hnames
      obtain ⟨b₁, hbind, hresolve, hothers, hbound⟩ := bindTable_ok (m := m) hf
        (hlength t (List.mem_cons_self ..)) (hkeyed t (List.mem_cons_self ..))
        (hr t (List.mem_cons_self ..))
      have hf₁ : b₁.Faithful := by
        rw [Faithful, hresolve]
        exact hf
      have hr₁ : ∀ s ∈ ts, Resolved mutation b₁ s := by
        intro s hs
        have hsr := hr s (List.mem_cons_of_mem _ hs)
        refine ⟨?_, ?_⟩ <;> rw [hresolve]
        · exact hsr.keys
        · exact hsr.columns
      obtain ⟨b₂, hbinds, hothers₂, hbounds⟩ := ih hf₁ hnames
        (fun s hs => hlength s (List.mem_cons_of_mem _ hs))
        (fun s hs => hkeyed s (List.mem_cons_of_mem _ hs)) hr₁
      refine ⟨b₂, ?_, ?_, ?_⟩
      · rw [bindTables, hbind]
        exact hbinds
      · intro n c u hn
        rw [List.map_cons, List.mem_cons, not_or] at hn
        rw [hothers₂ n c u hn.2, hothers n c u hn.1]
      · intro s hs
        rcases List.mem_cons.1 hs with rfl | hs
        · exact hbound.congr fun c u => hothers₂ s.name c u hnot
        · exact hbounds s hs

/-- The first table whose keys the identifier does not fit is reported. -/
theorem bindTables_illegal {ts : List TableMapping} (hf : b.Faithful) (hkeyed : ∀ t ∈ ts, t.Keyed)
    (hr : ∀ t ∈ ts, Resolved mutation b t) (h : ∃ t ∈ ts, t.keys.length ≠ v.id.length) :
    ∃ t ∈ ts, t.keys.length ≠ v.id.length ∧ bindTables m mutation v ts b =
      .error (.illegalState (.identifierSize m.entity v.id.length t.name t.keys.length)) := by
  induction ts generalizing b with
  | nil =>
      obtain ⟨t, ht, -⟩ := h
      cases ht
  | cons t ts ih =>
      rw [List.forall_mem_cons] at hkeyed hr
      by_cases hlength : t.keys.length = v.id.length
      · obtain ⟨b₁, hbind, hresolve, -, -⟩ := bindTable_ok (m := m) hf hlength hkeyed.1 hr.1
        have hf₁ : b₁.Faithful := by
          rw [Faithful, hresolve]
          exact hf
        have hr₁ : ∀ s ∈ ts, Resolved mutation b₁ s := by
          intro s hs
          obtain ⟨hkeys, hcolumns⟩ := hr.2 s hs
          refine ⟨?_, ?_⟩ <;> rw [hresolve]
          · exact hkeys
          · exact hcolumns
        have hrest := ((List.exists_mem_cons_iff ..).1 h).resolve_left (not_not_intro hlength)
        obtain ⟨s, hs, hne, herror⟩ := ih hf₁ hkeyed.2 hr₁ hrest
        refine ⟨s, List.mem_cons_of_mem _ hs, hne, ?_⟩
        rw [bindTables, hbind]
        exact herror
      · refine ⟨t, List.mem_cons_self .., hlength, ?_⟩
        rw [bindTables, bindTable, if_pos hlength]
        rfl

end Coordinator

end DialectSql
