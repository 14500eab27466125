import DialectSql.Entity.Group
import DialectSql.Proofs.Entity.Analysis

namespace DialectSql

open Store

namespace TableMapping

variable (t : TableMapping)

def insertOperation (style : PlaceholderStyle) : MutationOperation :=
  .prepared ⟨t, .insert, t.insertSql style .set, some 1⟩

def updateOperation (style : PlaceholderStyle) : MutationOperation :=
  if t.optional then
    .selfExecuting (.optionalUpdate
      ⟨t, t.deleteSql style, t.updateSql style, t.insertSql style .restrict⟩)
  else .prepared ⟨t, .update, t.updateSql style, some 1⟩

def deleteOperation (style : PlaceholderStyle) : MutationOperation :=
  .prepared ⟨t, .delete, t.deleteSql style, if t.optional then none else some 1⟩

theorem table_updateOperation (style : PlaceholderStyle) : (t.updateOperation style).table = t := by
  rw [updateOperation]
  split <;> rfl

end TableMapping

namespace MutationGroup

variable {t : TableMapping} {m : MutationTarget} (d : Dialect)

theorem insertOperation_eq (t : TableMapping) :
    insertOperation d t = .ok (t.insertOperation d.capabilities.placeholder) := by
  rw [insertOperation, preparedOperation,
    TableMapping.renderMutation_ofPieces (t.output_insert d .set)]
  rfl

theorem updateOperation_eq (hcolumns : t.columns ≠ []) :
    updateOperation d t = .ok (t.updateOperation d.capabilities.placeholder) := by
  have hdelete := TableMapping.renderMutation_ofPieces (t.output_delete d)
  have hupdate := TableMapping.renderMutation_ofPieces (t.output_update d hcolumns)
  have hinsert := TableMapping.renderMutation_ofPieces (t.output_insert d .restrict)
  rw [updateOperation, TableMapping.updateOperation]
  by_cases hoptional : t.optional = true
  · rw [if_pos hoptional, if_pos hoptional, OptionalUpdate.ofTable, hdelete, hupdate, hinsert]
    rfl
  · rw [if_neg hoptional, if_neg hoptional, preparedOperation, hupdate]
    rfl

theorem deleteOperation_eq (t : TableMapping) :
    deleteOperation d t = .ok (t.deleteOperation d.capabilities.placeholder) := by
  rw [deleteOperation, preparedOperation, TableMapping.renderMutation_ofPieces (t.output_delete d)]
  rfl

def operationsOf (style : PlaceholderStyle) (m : MutationTarget) :
    MutationType → List MutationOperation
  | .insert => m.tables.map (·.insertOperation style)
  | .update => (m.tables.filter fun t => !t.columns.isEmpty).map (·.updateOperation style)
  | .delete => m.tables.reverse.map (·.deleteOperation style)

/-- Every target has operations, whatever the dialect. -/
theorem build_eq (m : MutationTarget) (mutation : MutationType) : build d m mutation =
    .ok ⟨mutation, m, operationsOf d.capabilities.placeholder m mutation⟩ := by
  cases mutation with
  | insert =>
      rw [build, mapM_eq_pure fun t _ => insertOperation_eq d t]
      rfl
  | update =>
      rw [build, mapM_eq_pure fun t ht =>
        updateOperation_eq d (by simpa using (List.mem_filter.1 ht).2)]
      rfl
  | delete =>
      rw [build, mapM_eq_pure fun t _ => deleteOperation_eq d t]
      rfl

end MutationGroup

namespace MutationOperation

/-- An operation takes its table from representing some entities to representing others; where it is
excluded the table represents both. -/
structure Turns (op : MutationOperation) (t : TableMapping) (mutation : MutationType)
    (v : EntityValues) (a : ValuesAnalysis) (includes : TableMapping → Bool) (M N : List Entity) :
    Prop where
  runs : includes t = true → ∀ r : Running, t.HoldsIn r.connection.database M →
    Coordinator.Bound mutation v r.bindings t →
      ∃ r', op.perform a r = (r', .ok ()) ∧ r.Writes r' t ∧ t.HoldsIn r'.connection.database N
  skips : includes t = false → ∀ db, t.HoldsIn db M → t.HoldsIn db N

end MutationOperation

theorem withoutId_eq_self {M : List Entity} {id : List SqlValue}
    (h : ∀ f ∈ M, f.hasId id = false) : withoutId M id = M := by
  refine List.filter_eq_self.2 fun f hf => ?_
  rw [h f hf]
  rfl

theorem not_hasId_of_mem_withoutId {M : List Entity} {id : List SqlValue} :
    ∀ f ∈ withoutId M id, f.hasId id = false := fun _ hf => (mem_withoutId.1 hf).2

theorem Entity.hasId_ne_null {f : Entity} {id : List SqlValue} (h : f.hasId id = true) :
    ∀ x ∈ id, storedValue x ≠ .null := by
  have hne {as bs : List SqlValue} (h : sameKey as bs = true) : ∀ b ∈ bs, b ≠ .null := by
    induction as generalizing bs with
    | nil =>
        cases bs with
        | nil => nofun
        | cons b bs => cases h
    | cons a as ih =>
        cases bs with
        | nil => cases h
        | cons b bs =>
            obtain ⟨hab, hrest⟩ := Bool.and_eq_true_iff.1 h
            intro c hc
            rcases List.mem_cons.1 hc with rfl | hc
            · rintro rfl
              cases a <;> cases hab
            · exact ih hrest c hc
  intro x hx
  exact hne h _ (List.mem_map_of_mem hx)

section Turns

variable {m : MutationTarget} {t : TableMapping} {v : EntityValues} {M : List Entity}

theorem insertOperation_turns (hread : t.Readable) (hnames : (m.tables.map (·.name)).Nodup)
    (ht : t ∈ m.tables) (hkeys : t.keys ≠ []) (hnodup : (t.keys ++ t.columns).Nodup)
    (hid : ∀ x ∈ v.id, storedValue x ≠ .null) (hnew : ∀ f ∈ M, f.hasId v.id = false) :
    (t.insertOperation .question).Turns t .insert v (.analyze m v)
      (Coordinator.includes .insert (.analyze m v)) M (withoutId M v.id ++ [v.entity]) := by
  rw [withoutId_eq_self hnew]
  constructor
  · rintro hincludes r ⟨u, hu, h⟩ hb
    have hrow := (ValuesAnalysis.includesInsert_iff hnames ht).1 hincludes
    obtain ⟨r', hrun, -, hwrites, hholds⟩ :=
      Running.run_insert hread (by decide) hu h hkeys hnodup hid hnew hrow hb
    have hperform : (t.insertOperation .question).perform (.analyze m v) r =
        (r'.release t.name, .ok ()) := by
      change PreparedOperation.perform _ r = _
      rw [Coordinator.keyUsage] at hrun
      rw [PreparedOperation.perform, hrun]
      rfl
    exact ⟨_, hperform, hwrites.trans (.release r' t), hholds⟩
  · rintro hincludes db ⟨u, hu, h⟩
    refine ⟨u, hu, h.add_absent fun hrow => ?_⟩
    have hincluded := (ValuesAnalysis.includesInsert_iff (v := v) hnames ht).2 hrow
    rw [Coordinator.includes, hincluded] at hincludes
    cases hincludes

theorem deleteOperation_turns (hread : t.Readable)
    (hmem : ∃ f ∈ M, f.hasId v.id = true) (a : ValuesAnalysis) :
    (t.deleteOperation .question).Turns t .delete v a (Coordinator.includes .delete a) M
      (withoutId M v.id) := by
  constructor
  · rintro - r ⟨u, hu, h⟩ hb
    obtain ⟨r', hrun, -, hwrites, hholds⟩ := Running.run_delete hread (by decide) hu h hb
    have hperform : (t.deleteOperation .question).perform a r = (r'.release t.name, .ok ()) := by
      change PreparedOperation.perform _ r = _
      rw [PreparedOperation.perform, hrun]
      by_cases hoptional : t.optional = true
      · simp only [if_pos hoptional]
        rfl
      · obtain ⟨f, hf, hfid⟩ := hmem
        have hone := h.length_filter ⟨f, hf, hfid, fun h => absurd h hoptional⟩
        simp only [if_neg hoptional, hone]
        rfl
    exact ⟨_, hperform, hwrites.trans (.release r' t), hholds⟩
  · intro hincludes
    cases hincludes

theorem OptionalUpdate.allNull_eq {b : ValueBindings} (op : OptionalUpdate)
    (hb : Coordinator.Bound .update v b op.table) :
    op.allNull b = !ValuesAnalysis.hasNonNullValue v op.table := by
  rw [allNull, ValuesAnalysis.hasNonNullValue, List.not_any_eq_all_not, Bool.eq_iff_iff,
    List.all_eq_true, List.all_eq_true]
  refine forall₂_congr fun c hc => ?_
  rw [hb.columns (by decide) c hc, Option.getD_some, Bool.not_not]

theorem OptionalUpdate.perform_ok {op : OptionalUpdate} {a : ValuesAnalysis} {r r' : Running}
    (h : (if op.allNull r.bindings then op.remove (a.mayHaveRow op.table.name) r
      else op.upsert (a.mayHaveRow op.table.name) r) = (r', .ok ())) :
    op.perform a r = (r'.release op.table.name, .ok ()) := by
  simp only [perform, h]

/-- What an update relies on: the entity is known, and so is what the values say of it. -/
structure Updates (m : MutationTarget) (t : TableMapping) (v : EntityValues) (M : List Entity)
    (f : Entity) : Prop where
  readable : t.Readable
  names : (m.tables.map (·.name)).Nodup
  table : t ∈ m.tables
  keys : t.keys ≠ []
  columns : t.columns ≠ []
  nodup : (t.keys ++ t.columns).Nodup
  distinct : M.Pairwise fun a b => a.hasId b.id = false
  entity : f ∈ M
  hasId : f.hasId v.id = true
  previous : v.PreviousAgrees f t

namespace Updates

variable {f : Entity}

theorem only (h : Updates m t v M f) : ∀ g ∈ M, g.hasId v.id = true → g = f := fun _ hg hid =>
  eq_of_hasId h.distinct hg h.entity (sameKey_trans hid (sameKey_symm h.hasId))

theorem absent (h : Updates m t v M f) (hf : ¬ f.HasRow t) :
    ∀ g ∈ M, g.hasId v.id = true → ¬ g.HasRow t := by
  intro g hg hid
  rw [h.only g hg hid]
  exact hf

theorem skips (h : Updates m t v M f)
    (hincludes : Coordinator.includes .update (.analyze m v) t = false) {db : Database}
    (hM : t.HoldsIn db M) : t.HoldsIn db (withoutId M v.id ++ [v.entity]) := by
  obtain ⟨u, hu, hrep⟩ := hM
  rw [Coordinator.includes, ValuesAnalysis.includesUpdate_eq h.names h.table] at hincludes
  have hagrees := ValuesAnalysis.agrees_of_unchanged h.previous hincludes
  refine ⟨u, hu, hrep.congr (e := v.entity) h.distinct h.entity h.hasId
    (ValuesAnalysis.hasRow_of_unchanged h.previous hincludes) fun row hstands c hc => ?_⟩
  exact SqlValue.same_trans (hagrees c hc).2 (hstands.values c hc)

theorem insert_absent (h : Updates m t v M f) (hf : ¬ f.HasRow t) (hrow : v.entity.HasRow t)
    {r : Running} (hM : t.HoldsIn r.connection.database M)
    (hb : Coordinator.Bound .update v r.bindings t) :
    ∃ r', r.run (t.insertSql .question .restrict) = (r', .ok 1) ∧ r.Writes r' t ∧
      t.HoldsIn r'.connection.database (withoutId M v.id ++ [v.entity]) := by
  obtain ⟨u, hu, hrep⟩ := hM
  have herased := hrep.erase_absent v.id (h.absent hf)
  obtain ⟨r', hrun, -, hwrites, hholds⟩ := Running.run_insert h.readable (by decide) hu herased
    h.keys h.nodup (Entity.hasId_ne_null h.hasId) not_hasId_of_mem_withoutId hrow hb
  exact ⟨r', hrun, hwrites, hholds⟩

theorem upsert_ok (h : Updates m t v M f) (hoptional : t.optional = true)
    (hrow : v.entity.HasRow t) {r : Running} (hM : t.HoldsIn r.connection.database M)
    (hb : Coordinator.Bound .update v r.bindings t) {deletion : TranslatedSql} :
    ∃ r', OptionalUpdate.upsert ⟨t, deletion, t.updateSql .question, t.insertSql .question .restrict⟩
        ((ValuesAnalysis.analyze m v).mayHaveRow t.name) r = (r', .ok ()) ∧ r.Writes r' t ∧
      t.HoldsIn r'.connection.database (withoutId M v.id ++ [v.entity]) := by
  rw [OptionalUpdate.upsert]
  cases hmay : (ValuesAnalysis.analyze m v).mayHaveRow t.name with
  | false =>
      have hf := ValuesAnalysis.not_hasRow_of_mayHaveRow h.names h.table hoptional h.previous hmay
      obtain ⟨r', hrun, hwrites, hholds⟩ := h.insert_absent hf hrow hM hb
      refine ⟨r', ?_, hwrites, hholds⟩
      simp only [Bool.false_eq_true, if_false, hrun]
      rfl
  | true =>
      obtain ⟨u, hu, hrep⟩ := hM
      obtain ⟨r₁, count, hupdate, hbindings, hwrites, hpresent, habsent⟩ :=
        Running.run_update h.readable hu hrep h.keys h.columns h.nodup hrow hb
      by_cases hf : f.HasRow t
      · obtain ⟨rfl, hholds⟩ := hpresent ⟨f, h.entity, h.hasId, hf⟩
        refine ⟨r₁, ?_, hwrites, hholds⟩
        simp only [if_true, hupdate]
      · obtain ⟨rfl, hholds⟩ := habsent (h.absent hf)
        -- the update met no row, so that the row is inserted
        rw [← hbindings] at hb
        obtain ⟨r', hrun, hwrites', hholds'⟩ := h.insert_absent hf hrow hholds hb
        refine ⟨r', ?_, hwrites.trans hwrites', hholds'⟩
        simp only [if_true, hupdate, hrun]
        rfl

theorem remove_ok (h : Updates m t v M f) (hoptional : t.optional = true)
    (hrow : ¬ v.entity.HasRow t) {r : Running} (hM : t.HoldsIn r.connection.database M)
    (hb : Coordinator.Bound .update v r.bindings t) {update insertion : TranslatedSql} :
    ∃ r', OptionalUpdate.remove ⟨t, t.deleteSql .question, update, insertion⟩
        ((ValuesAnalysis.analyze m v).mayHaveRow t.name) r = (r', .ok ()) ∧ r.Writes r' t ∧
      t.HoldsIn r'.connection.database (withoutId M v.id ++ [v.entity]) := by
  obtain ⟨u, hu, hrep⟩ := hM
  rw [OptionalUpdate.remove]
  cases hmay : (ValuesAnalysis.analyze m v).mayHaveRow t.name with
  | false =>
      have hf := ValuesAnalysis.not_hasRow_of_mayHaveRow h.names h.table hoptional h.previous hmay
      have herased := hrep.erase_absent v.id (h.absent hf)
      exact ⟨r, rfl, .refl r t, u, hu, herased.add_absent hrow⟩
  | true =>
      obtain ⟨r', hrun, -, hwrites, u', hu', hrep'⟩ :=
        Running.run_delete h.readable (by decide) hu hrep hb
      refine ⟨r', ?_, hwrites, u', hu', hrep'.add_absent hrow⟩
      simp only [if_true, hrun]

/-- An update writes the row of a required table, and inserts, updates or deletes that of an
optional one. -/
theorem turns (h : Updates m t v M f) : (t.updateOperation .question).Turns t .update v
    (.analyze m v) (Coordinator.includes .update (.analyze m v)) M (withoutId M v.id ++ [v.entity]) := by
  refine ⟨fun _ r hM hb => ?_, fun hincludes db hM => h.skips hincludes hM⟩
  by_cases hoptional : t.optional = true
  · have hnull := OptionalUpdate.allNull_eq (b := r.bindings)
      ⟨t, t.deleteSql .question, t.updateSql .question, t.insertSql .question .restrict⟩ hb
    have hrow := ValuesAnalysis.hasRow_iff (v := v) (t := t)
    rw [hoptional, Bool.not_true, Bool.false_or] at hrow
    have hoperation : t.updateOperation .question = .selfExecuting (.optionalUpdate
        ⟨t, t.deleteSql .question, t.updateSql .question, t.insertSql .question .restrict⟩) :=
      if_pos hoptional
    by_cases hvalues : v.entity.HasRow t
    · obtain ⟨r', hupsert, hwrites, hholds⟩ := h.upsert_ok hoptional hvalues hM hb
      refine ⟨r'.release t.name, ?_, hwrites.trans (.release r' t), hholds⟩
      rw [hoperation]
      refine OptionalUpdate.perform_ok ?_
      rw [hnull, hrow.1 hvalues]
      exact hupsert
    · obtain ⟨r', hremove, hwrites, hholds⟩ := h.remove_ok hoptional hvalues hM hb
      have hnone : ValuesAnalysis.hasNonNullValue v t = false := by
        rw [← Bool.not_eq_true]
        exact fun hvalue => hvalues (hrow.2 hvalue)
      refine ⟨r'.release t.name, ?_, hwrites.trans (.release r' t), hholds⟩
      rw [hoperation]
      refine OptionalUpdate.perform_ok ?_
      rw [hnull, hnone]
      exact hremove
  · obtain ⟨u, hu, hrep⟩ := hM
    have hrequired (e : Entity) : e.HasRow t := fun h => absurd h hoptional
    obtain ⟨r', count, hrun, -, hwrites, hpresent, -⟩ :=
      Running.run_update h.readable hu hrep h.keys h.columns h.nodup (hrequired v.entity) hb
    obtain ⟨rfl, hholds⟩ := hpresent ⟨f, h.entity, h.hasId, hrequired f⟩
    refine ⟨r'.release t.name, ?_, hwrites.trans (.release r' t), hholds⟩
    rw [TableMapping.updateOperation, if_neg hoptional]
    change PreparedOperation.perform _ r = _
    rw [PreparedOperation.perform, hrun]
    rfl

end Updates

end Turns

end DialectSql
