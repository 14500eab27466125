import DialectSql.Proofs.Entity.Bindings
import Mathlib.Data.List.Induction

namespace DialectSql

/-- A column in one of its usages. -/
abbrev ColumnUse := String × ParameterUsage

/-- Says which columns of a table can be bound. -/
abbrev Resolver := String → String → ParameterUsage → Option ValueDescriptor

def ValueDescriptor.key (d : ValueDescriptor) : ColumnUse := (d.column, d.usage)

/-- A use of bindings that may change them. -/
inductive BindingCall
  | bind (table column : String) (usage : ParameterUsage) (value : SqlValue)
  | release (table : String)
  | clear
deriving DecidableEq, Repr

namespace BindingCall

def releases (table : String) : BindingCall → Bool
  | bind .. => false
  | release t => t == table
  | clear => true

variable (known : Resolver) (table : String)

/-- The column of a table that a call binds, in its usage, and the value. A column that is not known
cannot be bound. -/
def binding? : BindingCall → Option (ColumnUse × SqlValue)
  | bind t column usage x =>
    if t = table ∧ (known t column usage).isSome then some ((column, usage), x) else none
  | _ => none

/-- The bindings of a table that were accepted since its last release, in order. -/
def accepted (calls : List BindingCall) : List (ColumnUse × SqlValue) :=
  (calls.reverse.takeWhile fun k => !k.releases table).reverse.filterMap (binding? known table)

theorem accepted_append (calls : List BindingCall) (k : BindingCall) :
    accepted known table (calls ++ [k]) =
      if k.releases table then []
      else accepted known table calls ++ (k.binding? known table).toList := by
  cases hk : k.releases table with
  | true => simp [accepted, hk]
  | false =>
      have hlast : [k].filterMap (binding? known table) = (k.binding? known table).toList := by
        cases h : k.binding? known table <;> simp [h]
      simp [accepted, hk, ← hlast]

end BindingCall

/-- The value that a column was bound to last. -/
def lastValue? (key : ColumnUse) (bindings : List (ColumnUse × SqlValue)) : Option SqlValue :=
  ((bindings.filter fun p => p.1 = key).getLast?).map (·.2)

theorem lastValue?_append (key : ColumnUse) (bindings : List (ColumnUse × SqlValue))
    (p : ColumnUse × SqlValue) :
    lastValue? key (bindings ++ [p]) = if key = p.1 then some p.2 else lastValue? key bindings := by
  by_cases hp : key = p.1
  · simp [lastValue?, List.filter_append, hp]
  · simp [lastValue?, List.filter_append, hp, Ne.symm hp]

theorem eraseDups_append_singleton {α : Type*} [BEq α] [LawfulBEq α] (as : List α) (a : α) :
    (as ++ [a]).eraseDups = if a ∈ as then as.eraseDups else as.eraseDups ++ [a] := by
  rw [List.eraseDups_append]
  by_cases ha : a ∈ as
  · simp [List.removeAll, ha]
  · simp [List.removeAll, ha, List.eraseDups_cons]

theorem nodup_eraseDups {α : Type*} [BEq α] [LawfulBEq α] (as : List α) : as.eraseDups.Nodup := by
  induction as using List.reverseRecOn with
  | nil => simp
  | append_singleton as a ih =>
      rw [eraseDups_append_singleton]
      split
      · exact ih
      · next ha =>
        exact ih.append (List.nodup_singleton a) (by simpa using ha)

namespace ValueBindings

/-- A binding that is refused leaves everything as it is. -/
def call (b : ValueBindings) : BindingCall → ValueBindings
  | .bind table column usage x =>
    match b.bind table column usage x with
    | .ok b' => b'
    | .error _ => b
  | .release table => b.release table
  | .clear => b.clear

def after (b : ValueBindings) (calls : List BindingCall) : ValueBindings := calls.foldl call b

theorem after_append (b : ValueBindings) (calls : List BindingCall) (k : BindingCall) :
    b.after (calls ++ [k]) = (b.after calls).call k := List.foldl_concat ..

/-- What a slot is given, if it is given anything. -/
def content? (b : ValueBindings) : BindSlot → Option SqlValue
  | .value v => some v
  | .column table column usage => b.value? table column usage

theorem slotValue_cases (b : ValueBindings) (slot : BindSlot) :
    (∃ v, b.slotValue slot = .ok v ∧ b.content? slot = some v) ∨
      ∃ table column usage, slot = .column table column usage ∧
        b.value? table column usage = none ∧
        b.slotValue slot = .error (.missingBinding table column usage) := by
  cases slot with
  | value v => exact .inl ⟨v, rfl, rfl⟩
  | column table column usage =>
      cases hvalue : b.value? table column usage with
      | none => exact .inr ⟨table, column, usage, rfl, hvalue, by rw [slotValue, hvalue]⟩
      | some v => exact .inl ⟨v, by rw [slotValue, hvalue], hvalue⟩

theorem slotValues_cons_of_ok {b : ValueBindings} {slot : BindSlot} {v : SqlValue}
    (h : b.slotValue slot = .ok v) (slots : List BindSlot) :
    b.slotValues (slot :: slots) = (b.slotValues slots).map (v :: ·) := by
  rw [slotValues, List.mapM_cons, h, slotValues]
  cases slots.mapM b.slotValue <;> rfl

/-- The slots of a statement get their values in order, or the first that has none is reported. -/
theorem slotValues_cases (b : ValueBindings) (slots : List BindSlot) :
    (∃ values, b.slotValues slots = .ok values ∧ slots.map b.content? = values.map some) ∨
      ∃ before table column usage behind, slots = before ++ .column table column usage :: behind ∧
        (∀ s ∈ before, (b.content? s).isSome) ∧ b.value? table column usage = none ∧
        b.slotValues slots = .error (.missingBinding table column usage) := by
  induction slots with
  | nil => exact .inl ⟨[], rfl, rfl⟩
  | cons slot slots ih =>
      rcases b.slotValue_cases slot with ⟨v, hv, hcontent⟩ |
        ⟨table, column, usage, rfl, hnone, herror⟩
      · rw [slotValues_cons_of_ok hv]
        rcases ih with ⟨values, hvalues, hmap⟩ |
          ⟨before, table, column, usage, behind, rfl, hbefore, hnone, herror⟩
        · refine .inl ⟨v :: values, by rw [hvalues]; rfl, ?_⟩
          rw [List.map_cons, hcontent, hmap, List.map_cons]
        · refine .inr ⟨slot :: before, table, column, usage, behind, rfl, ?_, hnone, ?_⟩
          · exact List.forall_mem_cons.2 ⟨by rw [hcontent]; rfl, hbefore⟩
          · rw [herror]
            rfl
      · refine .inr ⟨[], table, column, usage, slots, rfl, nofun, hnone, ?_⟩
        rw [slotValues, List.mapM_cons, herror]
        rfl

theorem isFor_iff {column : String} {usage : ParameterUsage} {v : BindingValue} :
    isFor column usage v = true ↔ v.descriptor.key = (column, usage) := by
  rw [isFor, Bool.and_eq_true, beq_iff_eq, beq_iff_eq, ValueDescriptor.key, Prod.mk.injEq]

/-- A first value of a column adds its descriptor at the end, a further one adds none. -/
theorem descriptors_putValue {d : ValueDescriptor} {column : String} {usage : ParameterUsage}
    (x : SqlValue) (vs : List BindingValue) :
    (putValue d column usage x vs).map (·.descriptor) =
      if (column, usage) ∈ vs.map (·.descriptor.key) then vs.map (·.descriptor)
      else vs.map (·.descriptor) ++ [d] := by
  induction vs with
  | nil => rfl
  | cons v vs ih =>
      rw [putValue]
      by_cases hv : isFor column usage v = true
      · rw [if_pos hv, if_pos (by simp [isFor_iff.1 hv])]
        rfl
      · have hne : (column, usage) ≠ v.descriptor.key := fun h => hv (isFor_iff.2 h.symm)
        rw [if_neg hv, List.map_cons, ih]
        by_cases hmem : (column, usage) ∈ vs.map (·.descriptor.key)
        · have hcons : (column, usage) ∈ (v :: vs).map (·.descriptor.key) :=
            List.mem_cons_of_mem _ hmem
          rw [if_pos hmem, if_pos hcons, List.map_cons]
        · have hcons : (column, usage) ∉ (v :: vs).map (·.descriptor.key) :=
            fun h => (List.mem_cons.1 h).elim hne hmem
          rw [if_neg hmem, if_neg hcons, List.map_cons, List.cons_append]

variable {known : Resolver}

/-- A group of values is what the accepted bindings of its table make it. -/
structure Records (known : Resolver) (table : String)
    (bindings : List (ColumnUse × SqlValue)) (vs : List BindingValue) : Prop where
  keys : vs.map (·.descriptor.key) = (bindings.map (·.1)).eraseDups
  descriptor : ∀ v ∈ vs, known table v.descriptor.column v.descriptor.usage = some v.descriptor
  value : ∀ column usage,
    (vs.find? (isFor column usage)).map (·.value) = lastValue? (column, usage) bindings

namespace Records

variable {table column : String} {usage : ParameterUsage} {d : ValueDescriptor}
  {bindings : List (ColumnUse × SqlValue)} {vs : List BindingValue}

theorem nil (known : Resolver) (table : String) :
    Records known table [] [] := ⟨rfl, nofun, fun _ _ => rfl⟩

theorem put (h : Records known table bindings vs) (hd : known table column usage = some d)
    (hkey : d.column = column ∧ d.usage = usage) (x : SqlValue) :
    Records known table (bindings ++ [((column, usage), x)]) (putValue d column usage x vs) where
  keys := by
    have hkeys : (putValue d column usage x vs).map (·.descriptor.key) =
        ((putValue d column usage x vs).map (·.descriptor)).map ValueDescriptor.key := by
      rw [List.map_map]
      rfl
    have hmem : (column, usage) ∈ vs.map (·.descriptor.key) ↔
        (column, usage) ∈ bindings.map (·.1) := by
      rw [h.keys, List.mem_eraseDups]
    rw [hkeys, descriptors_putValue, List.map_append, List.map_singleton,
      eraseDups_append_singleton, ← h.keys]
    by_cases hbound : (column, usage) ∈ bindings.map (·.1)
    · rw [if_pos (hmem.2 hbound), if_pos hbound, List.map_map]
      rfl
    · rw [if_neg (mt hmem.1 hbound), if_neg hbound, List.map_append, List.map_map,
        List.map_singleton, ValueDescriptor.key, hkey.1, hkey.2]
      rfl
  descriptor v hv := by
    have hdescriptor := List.mem_map_of_mem (f := BindingValue.descriptor) hv
    rw [descriptors_putValue] at hdescriptor
    split at hdescriptor
    · obtain ⟨w, hw, heq⟩ := List.mem_map.1 hdescriptor
      rw [← heq, h.descriptor w hw]
    · rcases List.mem_append.1 hdescriptor with hold | hnew
      · obtain ⟨w, hw, heq⟩ := List.mem_map.1 hold
        rw [← heq, h.descriptor w hw]
      · rw [List.mem_singleton.1 hnew, hkey.1, hkey.2, hd]
  value c u := by
    rw [find?_putValue hkey.1 hkey.2, lastValue?_append, h.value c u]
    by_cases hcu : c = column ∧ u = usage
    · rw [if_pos hcu, if_pos (Prod.ext hcu.1 hcu.2)]
    · rw [if_neg hcu, if_neg fun heq => hcu (Prod.mk.inj heq)]

/-- An entry is the one that is found for its column. -/
theorem find?_of_mem (h : Records known table bindings vs) {v : BindingValue} (hv : v ∈ vs) :
    vs.find? (isFor v.descriptor.column v.descriptor.usage) = some v := by
  have hnodup : (vs.map (·.descriptor.key)).Nodup := h.keys ▸ nodup_eraseDups _
  have hfound : (vs.find? (isFor v.descriptor.column v.descriptor.usage)).isSome :=
    List.find?_isSome.2 ⟨v, hv, isFor_iff.2 rfl⟩
  obtain ⟨w, hw⟩ := Option.isSome_iff_exists.1 hfound
  have hsame : w.descriptor.key = v.descriptor.key := isFor_iff.1 (List.find?_some hw)
  rw [hw, List.inj_on_of_nodup_map hnodup (List.mem_of_find?_eq_some hw) hv hsame]

end Records

theorem call_bind_of_none {b : ValueBindings} {table column : String} {usage : ParameterUsage}
    (h : b.resolve? table column usage = none) (x : SqlValue) :
    b.bind table column usage x = .error (.unknownParameter table column usage) ∧
      b.call (.bind table column usage x) = b := by
  have hbind : b.bind table column usage x = .error (.unknownParameter table column usage) := by
    rw [bind, h]
  exact ⟨hbind, by rw [call, hbind]⟩

theorem call_bind_of_some {b : ValueBindings} {table column : String} {usage : ParameterUsage}
    {d : ValueDescriptor} (h : b.resolve? table column usage = some d) (x : SqlValue) :
    b.bind table column usage x = .ok (b.call (.bind table column usage x)) ∧
      (b.call (.bind table column usage x)).resolve? = b.resolve? ∧
      ∀ t, (b.call (.bind table column usage x)).group t =
        if t = table then putValue d column usage x (b.group table) else b.group t := by
  obtain ⟨b', hbind, hresolve, hgroup⟩ := bind_of_resolve? h x
  have hcall : b.call (.bind table column usage x) = b' := by rw [call, hbind]
  rw [hcall]
  exact ⟨hbind, hresolve, hgroup⟩

theorem resolve?_call (b : ValueBindings) (k : BindingCall) : (b.call k).resolve? = b.resolve? := by
  cases k with
  | bind table column usage x =>
      cases h : b.resolve? table column usage with
      | none => rw [(call_bind_of_none h x).2]
      | some d => exact (call_bind_of_some h x).2.1
  | release | clear => rfl

theorem resolve?_after (b : ValueBindings) (calls : List BindingCall) :
    (b.after calls).resolve? = b.resolve? := by
  induction calls using List.reverseRecOn with
  | nil => rfl
  | append_singleton calls k ih => rw [after_append, resolve?_call, ih]

variable {b : ValueBindings} {table : String} {bindings : List (ColumnUse × SqlValue)}

theorem Records.call (h : Records b.resolve? table bindings (b.group table)) (hf : b.Faithful)
    (k : BindingCall) :
    Records b.resolve? table
      (if k.releases table then [] else bindings ++ (k.binding? b.resolve? table).toList)
      ((b.call k).group table) := by
  cases k with
  | bind t column usage x =>
      rw [if_neg (by simp [BindingCall.releases]), BindingCall.binding?]
      cases hd : b.resolve? t column usage with
      | none => simpa [(call_bind_of_none hd x).2, hd] using h
      | some d =>
          rw [(call_bind_of_some hd x).2.2]
          by_cases ht : t = table
          · subst ht
            simpa [hd] using h.put hd (hf _ _ _ _ hd) x
          · simpa [ht, Ne.symm ht] using h
  | release t =>
      rw [ValueBindings.call, group_release, BindingCall.releases]
      by_cases ht : t = table
      · simpa [ht] using Records.nil b.resolve? table
      · simpa [BindingCall.binding?, ht, Ne.symm ht] using h
  | clear => exact .nil b.resolve? table

theorem records_after (mutation : MutationType) (entity : String)
    (hf : (empty mutation entity known).Faithful) (calls : List BindingCall) (table : String) :
    Records known table (BindingCall.accepted known table calls)
      (((empty mutation entity known).after calls).group table) := by
  induction calls using List.reverseRecOn with
  | nil => exact .nil known table
  | append_singleton calls k ih =>
      have hresolve : ((empty mutation entity known).after calls).resolve? = known :=
        resolve?_after _ calls
      have hstep := Records.call (b := (empty mutation entity known).after calls)
        (by rw [hresolve]; exact ih) (by rw [Faithful, hresolve]; exact hf) k
      rw [hresolve] at hstep
      rw [after_append, BindingCall.accepted_append]
      exact hstep

/-- What a slot is given by the bindings accepted in a run of calls. -/
def boundContent? (known : Resolver)
    (calls : List BindingCall) : BindSlot → Option SqlValue
  | .value v => some v
  | .column table column usage =>
    lastValue? (column, usage) (BindingCall.accepted known table calls)

/-- Bindings hold for each column the value of its last accepted binding since its table was last
released, one entry for each column in the order of first binding. A refused binding and the release
of another table change nothing for a table. The slots of a statement get their values in order, or
the first column without a value is reported. -/
theorem lastBinding_after (mutation : MutationType) (entity : String)
    (hf : ∀ table column usage d, known table column usage = some d →
      d.column = column ∧ d.usage = usage) (calls : List BindingCall) :
    let b := (empty mutation entity known).after calls
    (∀ table column usage, b.value? table column usage =
      lastValue? (column, usage) (BindingCall.accepted known table calls)) ∧
    (∀ table, (b.group table).map (·.descriptor.key) =
        ((BindingCall.accepted known table calls).map (·.1)).eraseDups ∧
      ((b.group table).map (·.descriptor.key)).Nodup ∧
      ∀ v ∈ b.group table,
        known table v.descriptor.column v.descriptor.usage = some v.descriptor ∧
          b.value? table v.descriptor.column v.descriptor.usage = some v.value) ∧
    (∀ table column usage x,
      match known table column usage with
      | none => b.bind table column usage x = .error (.unknownParameter table column usage) ∧
          b.call (.bind table column usage x) = b
      | some _ => b.bind table column usage x = .ok (b.call (.bind table column usage x))) ∧
    (∀ table other, table ≠ other → (b.call (.release other)).group table = b.group table ∧
      (b.call (.release other)).value? table = b.value? table) ∧
    ∀ slots,
      (∃ values, b.slotValues slots = .ok values ∧
        slots.map (boundContent? known calls) = values.map some) ∨
      ∃ before table column usage behind, slots = before ++ .column table column usage :: behind ∧
        (∀ s ∈ before, (boundContent? known calls s).isSome) ∧
        lastValue? (column, usage) (BindingCall.accepted known table calls) = none ∧
        b.slotValues slots = .error (.missingBinding table column usage) := by
  intro b
  have hresolve : b.resolve? = known := resolve?_after _ calls
  have hrecords (table : String) := records_after mutation entity hf calls table
  have hvalue (table column : String) (usage : ParameterUsage) : b.value? table column usage =
      lastValue? (column, usage) (BindingCall.accepted known table calls) :=
    (hrecords table).value column usage
  refine ⟨hvalue, fun table => ?_, fun table column usage x => ?_, fun table other hne => ?_,
    fun slots => ?_⟩
  · refine ⟨(hrecords table).keys, (hrecords table).keys ▸ nodup_eraseDups _, fun v hv => ?_⟩
    refine ⟨(hrecords table).descriptor v hv, ?_⟩
    rw [value?, (hrecords table).find?_of_mem hv, Option.map_some]
  · cases h : known table column usage with
    | none => exact call_bind_of_none (hresolve ▸ h) x
    | some d => exact (call_bind_of_some (hresolve ▸ h) x).1
  · have hgroup : (b.release other).group table = b.group table := by
      rw [group_release, if_neg hne]
    exact ⟨hgroup, funext fun column => funext fun usage => b.value?_release hne column usage⟩
  · have hcontent : b.content? = boundContent? known calls := by
      funext slot
      cases slot with
      | value v => rfl
      | column table column usage => exact hvalue table column usage
    have hcases := b.slotValues_cases slots
    simp only [hcontent, hvalue] at hcases
    exact hcases

/-- A name that is bound again keeps its place, and a refused binding leaves no trace. -/
theorem lastBinding_after_rebound :
    let known (table column : String) (usage : ParameterUsage) : Option ValueDescriptor :=
      if table = "person" ∧ column ∈ ["id", "name"] then some ⟨table, column, usage, 1⟩ else none
    let b := (empty .update "Person" known).after
      [.bind "person" "name" .set (.text "Ada"), .bind "person" "id" .restrict (.int 7),
        .bind "person" "age" .set (.int 36), .release "person_detail",
        .bind "person" "name" .set (.text "Grace")]
    (∀ table column usage d, known table column usage = some d →
      d.column = column ∧ d.usage = usage) ∧
    b.value? "person" "name" .set = some (.text "Grace") ∧ b.value? "person" "age" .set = none ∧
    (b.group "person").map (·.descriptor.key) = [("name", .set), ("id", .restrict)] := by
  intro known b
  have hknown (table column : String) (usage : ParameterUsage) (d : ValueDescriptor)
      (h : known table column usage = some d) : d.column = column ∧ d.usage = usage := by
    simp only [known, Option.ite_none_right_eq_some, Option.some.injEq] at h
    rw [← h.2]
    exact ⟨rfl, rfl⟩
  obtain ⟨hvalue, hgroup, -⟩ := lastBinding_after .update "Person" hknown
    [.bind "person" "name" .set (.text "Ada"), .bind "person" "id" .restrict (.int 7),
      .bind "person" "age" .set (.int 36), .release "person_detail",
      .bind "person" "name" .set (.text "Grace")]
  refine ⟨hknown, ?_, ?_, ?_⟩
  · rw [hvalue]
    decide
  · rw [hvalue]
    decide
  · rw [(hgroup "person").1]
    decide

end ValueBindings

end DialectSql
