import DialectSql.Proofs.Entity.Commands
import DialectSql.Proofs.Store.Changes

namespace DialectSql

open Store

/-- An entity as an application sees it: an identifier, and a value for each column of each
table. -/
structure Entity where
  id : List SqlValue
  value : String → String → SqlValue

namespace Entity

/-- Whether the entity has an identifier, as keys are compared. -/
def hasId (e : Entity) (id : List SqlValue) : Bool :=
  sameKey (e.id.map storedValue) (id.map storedValue)

/-- An entity has a row in a table unless the table is optional and all its values are null. -/
def HasRow (e : Entity) (t : TableMapping) : Prop :=
  t.optional = true → ∃ c ∈ t.columns, (e.value t.name c).isNull = false

instance (e : Entity) (t : TableMapping) : Decidable (e.HasRow t) :=
  inferInstanceAs (Decidable (_ → _))

/-- A row holds the identifier and the values of an entity, as they are stored. -/
structure Stands (e : Entity) (t : TableMapping) (u : Table) (row : List SqlValue) : Prop where
  key : sameKey (t.keys.map (u.cell row)) (e.id.map storedValue) = true
  values : ∀ c ∈ t.columns, (storedValue (e.value t.name c)).same (u.cell row c) = true

instance (e : Entity) (t : TableMapping) (u : Table) (row : List SqlValue) :
    Decidable (e.Stands t u row) :=
  decidable_of_iff (_ ∧ _) ⟨fun ⟨key, values⟩ => ⟨key, values⟩, fun h => ⟨h.key, h.values⟩⟩

end Entity

/-- The entities by their identifiers, each identifier once. -/
structure EntityMap where
  entities : List Entity
  distinct : entities.Pairwise fun e f => e.hasId f.id = false

def withoutId (M : List Entity) (id : List SqlValue) : List Entity := M.filter fun e => !e.hasId id

namespace EntityMap

def empty : EntityMap := ⟨[], .nil⟩

def Has (M : EntityMap) (id : List SqlValue) : Prop := ∃ e ∈ M.entities, e.hasId id = true

instance (M : EntityMap) (id : List SqlValue) : Decidable (M.Has id) :=
  inferInstanceAs (Decidable (∃ e ∈ M.entities, _))

def erase (M : EntityMap) (id : List SqlValue) : EntityMap where
  entities := withoutId M.entities id
  distinct := M.distinct.sublist List.filter_sublist

/-- Adds an entity, or replaces the one with its identifier. -/
def put (M : EntityMap) (e : Entity) : EntityMap where
  entities := withoutId M.entities e.id ++ [e]
  distinct := by
    refine List.pairwise_append.2 ⟨M.distinct.sublist List.filter_sublist,
      List.pairwise_singleton _ _, ?_⟩
    intro f hf g hg
    obtain rfl := List.mem_singleton.1 hg
    simpa using (List.mem_filter.1 hf).2

end EntityMap

namespace TableMapping

/-- The table of the database that a mapping describes: its rows are told apart by the key. -/
structure Fits (t : TableMapping) (u : Table) : Prop where
  unique : u.unique = t.keys
  columns : ∀ c ∈ t.keys ++ t.columns, c ∈ u.columns
  lengths : ∀ row ∈ u.rows, row.length = u.columns.length
  distinct : u.Distinct u.rows

instance (t : TableMapping) (u : Table) : Decidable (t.Fits u) :=
  decidable_of_iff (_ ∧ _ ∧ _ ∧ u.Distinct u.rows)
    ⟨fun ⟨unique, columns, lengths, distinct⟩ => ⟨unique, columns, lengths, distinct⟩,
      fun h => ⟨h.unique, h.columns, h.lengths, h.distinct⟩⟩

/-- A table holds one row for each entity that has one, and no other row. -/
structure Represents (t : TableMapping) (u : Table) (M : List Entity) : Prop extends t.Fits u where
  sound : ∀ row ∈ u.rows, ∃ e ∈ M, e.HasRow t ∧ e.Stands t u row
  complete : ∀ e ∈ M, e.HasRow t → ∃ row ∈ u.rows, e.Stands t u row

instance (t : TableMapping) (u : Table) (M : List Entity) : Decidable (t.Represents u M) :=
  decidable_of_iff (t.Fits u ∧ _ ∧ _) ⟨fun ⟨fits, sound, complete⟩ => ⟨fits, sound, complete⟩,
    fun h => ⟨h.toFits, h.sound, h.complete⟩⟩

def HoldsIn (t : TableMapping) (db : Database) (M : List Entity) : Prop :=
  ∃ u, db.table? t.tableName = some u ∧ t.Represents u M

instance (t : TableMapping) (db : Database) (M : List Entity) : Decidable (t.HoldsIn db M) :=
  inferInstanceAs (Decidable (∃ u ∈ db.table? t.tableName, t.Represents u M))

end TableMapping

theorem mem_withoutId {M : List Entity} {id : List SqlValue} {e : Entity} :
    e ∈ withoutId M id ↔ e ∈ M ∧ e.hasId id = false := by
  rw [withoutId, List.mem_filter]
  simp

variable {t : TableMapping} {u : Table} {M : List Entity} {e : Entity} {id row : List SqlValue}

theorem Entity.hasId_symm {f : Entity} (h : f.hasId e.id = true) : e.hasId f.id = true :=
  sameKey_symm h

/-- An identifier belongs to one entity. -/
theorem eq_of_hasId (h : M.Pairwise fun a b => a.hasId b.id = false) {f g : Entity} (hf : f ∈ M)
    (hg : g ∈ M) (hid : f.hasId g.id = true) : f = g := by
  induction M with
  | nil => cases hf
  | cons a M ih =>
      obtain ⟨ha, hM⟩ := List.pairwise_cons.1 h
      rcases List.mem_cons.1 hf with rfl | hfM
      · rcases List.mem_cons.1 hg with rfl | hgM
        · rfl
        · rw [ha g hgM] at hid
          cases hid
      · rcases List.mem_cons.1 hg with rfl | hgM
        · have hne := ha f hfM
          rw [Entity.hasId_symm hid] at hne
          cases hne
        · exact ih hM hfM hgM

theorem Entity.Stands.hasKey (h : e.Stands t u row) (id : List SqlValue) :
    Database.hasKey u t.keys id row = e.hasId id := sameKey_congr h.key

namespace TableMapping.Fits

theorem uniqueKey_eq (h : t.Fits u) (row : List SqlValue) :
    u.uniqueKey row = t.keys.map (u.cell row) := by
  rw [Table.uniqueKey, h.unique]

theorem uniqueKey_congr (h : t.Fits u) {row' : List SqlValue}
    (hkeys : ∀ k ∈ t.keys, u.cell row' k = u.cell row k) : u.uniqueKey row' = u.uniqueKey row := by
  rw [h.uniqueKey_eq, h.uniqueKey_eq]
  exact List.map_congr_left hkeys

theorem unique_ne_nil (h : t.Fits u) (hkeys : t.keys ≠ []) : u.unique ≠ [] := by
  rwa [h.unique]

theorem withRows (h : t.Fits u) {rows : List (List SqlValue)}
    (hlengths : ∀ row ∈ rows, row.length = u.columns.length) (hdistinct : u.Distinct rows) :
    t.Fits { u with rows } := ⟨h.unique, h.columns, hlengths, hdistinct⟩

/-- Rows may be changed where their keys stay. -/
theorem changed (h : t.Fits u) (p : List SqlValue → Bool) {change : List SqlValue → List SqlValue}
    (hlength : ∀ r, (change r).length = r.length)
    (hkeys : ∀ r ∈ u.rows, ∀ k ∈ t.keys, u.cell (change r) k = u.cell r k) :
    t.Fits { u with rows := u.rows.map (Table.changed p change) } := by
  have hlengths : ∀ r ∈ u.rows, (Table.changed p change r).length = u.columns.length := by
    intro r hr
    rw [Table.changed, apply_ite List.length, hlength, ite_self, h.lengths r hr]
  have hunique : ∀ r ∈ u.rows, u.uniqueKey (Table.changed p change r) = u.uniqueKey r := by
    intro r hr
    rw [Table.changed]
    split
    · exact h.uniqueKey_congr (hkeys r hr)
    · rfl
  exact h.withRows (List.forall_mem_map.2 hlengths) (Table.distinct_map hunique h.distinct)

end TableMapping.Fits

namespace TableMapping.Represents

theorem erase_absent (h : t.Represents u M) (id : List SqlValue)
    (hnone : ∀ f ∈ M, f.hasId id = true → ¬ f.HasRow t) : t.Represents u (withoutId M id) where
  toFits := h.toFits
  sound row hrow := by
    obtain ⟨f, hf, hhas, hstands⟩ := h.sound row hrow
    refine ⟨f, mem_withoutId.2 ⟨hf, ?_⟩, hhas, hstands⟩
    cases hid : f.hasId id with
    | false => rfl
    | true => exact absurd hhas (hnone f hf hid)
  complete f hf hhas := h.complete f (mem_withoutId.1 hf).1 hhas

theorem erase (h : t.Represents u M) (id : List SqlValue) :
    t.Represents { u with rows := u.rows.filter fun row => !Database.hasKey u t.keys id row }
      (withoutId M id) where
  toFits := h.toFits.withRows (fun row hrow => h.lengths row (List.mem_filter.1 hrow).1)
    (h.distinct.filter _)
  sound row hrow := by
    obtain ⟨hrow, hkey⟩ := List.mem_filter.1 hrow
    obtain ⟨f, hf, hhas, hstands⟩ := h.sound row hrow
    rw [hstands.hasKey, Bool.not_eq_true'] at hkey
    exact ⟨f, mem_withoutId.2 ⟨hf, hkey⟩, hhas, hstands.key, hstands.values⟩
  complete f hf hhas := by
    obtain ⟨hf, hid⟩ := mem_withoutId.1 hf
    obtain ⟨row, hrow, hstands⟩ := h.complete f hf hhas
    refine ⟨row, List.mem_filter.2 ⟨hrow, ?_⟩, hstands.key, hstands.values⟩
    rw [hstands.hasKey, hid]
    rfl

theorem add_absent (h : t.Represents u M) (he : ¬ e.HasRow t) : t.Represents u (M ++ [e]) where
  toFits := h.toFits
  sound row hrow := by
    obtain ⟨f, hf, hhas, hstands⟩ := h.sound row hrow
    exact ⟨f, List.mem_append_left _ hf, hhas, hstands⟩
  complete f hf hhas := by
    rcases List.mem_append.1 hf with hf | hf
    · exact h.complete f hf hhas
    · obtain rfl := List.mem_singleton.1 hf
      exact absurd hhas he

/-- The row of a new entity meets no other row. -/
theorem add (h : t.Represents u M) (hkeys : t.keys ≠ []) (hnew : ∀ f ∈ M, f.hasId e.id = false)
    (he : e.HasRow t) (hstands : e.Stands t u row) (hlength : row.length = u.columns.length) :
    u.insertRow row = some { u with rows := u.rows ++ [row] } ∧
      t.Represents { u with rows := u.rows ++ [row] } (M ++ [e]) := by
  have hfree : ∀ r ∈ u.rows, sameKey (u.uniqueKey row) (u.uniqueKey r) = false := by
    intro r hr
    obtain ⟨f, hf, -, hf'⟩ := h.sound r hr
    cases hsame : sameKey (u.uniqueKey row) (u.uniqueKey r) with
    | false => rfl
    | true =>
        rw [h.uniqueKey_eq, h.uniqueKey_eq] at hsame
        have hid : f.hasId e.id = true :=
          sameKey_trans (sameKey_symm hf'.key) (sameKey_trans (sameKey_symm hsame) hstands.key)
        rw [hnew f hf] at hid
        cases hid
  refine ⟨Table.insertRow_eq (h.unique_ne_nil hkeys) hfree, ?_, ?_, ?_⟩
  · refine h.toFits.withRows ?_ (h.distinct.append hfree)
    intro r hr
    rcases List.mem_append.1 hr with hr | hr
    · exact h.lengths r hr
    · obtain rfl := List.mem_singleton.1 hr
      exact hlength
  · intro r hr
    rcases List.mem_append.1 hr with hr | hr
    · obtain ⟨f, hf, hhas, hstands⟩ := h.sound r hr
      exact ⟨f, List.mem_append_left _ hf, hhas, hstands.key, hstands.values⟩
    · obtain rfl := List.mem_singleton.1 hr
      exact ⟨e, List.mem_append_right _ (List.mem_singleton_self e), he, hstands.key, hstands.values⟩
  · intro f hf hhas
    rcases List.mem_append.1 hf with hf | hf
    · obtain ⟨r, hr, hstands⟩ := h.complete f hf hhas
      exact ⟨r, List.mem_append_left _ hr, hstands.key, hstands.values⟩
    · obtain rfl := List.mem_singleton.1 hf
      exact ⟨row, List.mem_append_right _ (List.mem_singleton_self row), hstands.key, hstands.values⟩

/-- The rows with an identifier are those of the entity that has it. -/
theorem length_filter (h : t.Represents u M) (hrow : ∃ f ∈ M, f.hasId id = true ∧ f.HasRow t) :
    (u.rows.filter (Database.hasKey u t.keys id)).length = 1 := by
  obtain ⟨f, hf, hid, hhas⟩ := hrow
  obtain ⟨row, hrow, hstands⟩ := h.complete f hf hhas
  have hfilter : Database.hasKey u t.keys id = fun r => sameKey (u.uniqueKey r) (id.map storedValue) :=
    funext fun r => by rw [Database.hasKey, h.uniqueKey_eq]
  rw [hfilter]
  refine Table.length_filter_key h.distinct ⟨row, hrow, ?_⟩
  rw [h.uniqueKey_eq]
  exact (hstands.hasKey id).trans hid

theorem filter_eq_nil (h : t.Represents u M) (hnone : ∀ f ∈ M, f.hasId id = true → ¬ f.HasRow t) :
    u.rows.filter (Database.hasKey u t.keys id) = [] := by
  rw [List.filter_eq_nil_iff]
  intro row hrow hkey
  obtain ⟨f, hf, hhas, hstands⟩ := h.sound row hrow
  rw [hstands.hasKey] at hkey
  exact hnone f hf hkey hhas

theorem replace (h : t.Represents u M) (he : e.HasRow t)
    (hrow : ∃ f ∈ M, f.hasId e.id = true ∧ f.HasRow t) {change : List SqlValue → List SqlValue}
    (hlength : ∀ r, (change r).length = r.length)
    (hchange : ∀ r, r.length = u.columns.length →
      (∀ k ∈ t.keys, u.cell (change r) k = u.cell r k) ∧
        ∀ c ∈ t.columns, (storedValue (e.value t.name c)).same (u.cell (change r) c) = true) :
    t.Represents
      { u with rows := u.rows.map (Table.changed (Database.hasKey u t.keys e.id) change) }
      (withoutId M e.id ++ [e]) := by
  have hstands : ∀ r ∈ u.rows, Database.hasKey u t.keys e.id r = true →
      e.Stands t u (change r) := by
    intro r hr hid
    obtain ⟨hkeys, hvalues⟩ := hchange r (h.lengths r hr)
    refine ⟨?_, hvalues⟩
    rw [List.map_congr_left hkeys]
    exact hid
  refine ⟨h.toFits.changed _ hlength fun r hr => (hchange r (h.lengths r hr)).1, ?_, ?_⟩
  -- a row is the entity's own, or it has another identifier and is what it was
  · intro r hr
    obtain ⟨s, hs, rfl⟩ := List.mem_map.1 hr
    rw [Table.changed]
    split
    · rename_i hid
      have hs' := hstands s hs hid
      exact ⟨e, List.mem_append_right _ (List.mem_singleton_self e), he, hs'.key, hs'.values⟩
    · rename_i hid
      obtain ⟨f, hf, hhas, hf'⟩ := h.sound s hs
      rw [hf'.hasKey, Bool.not_eq_true] at hid
      exact ⟨f, List.mem_append_left _ (mem_withoutId.2 ⟨hf, hid⟩), hhas, hf'.key, hf'.values⟩
  · intro f hf hhas
    rcases List.mem_append.1 hf with hf | hf
    · obtain ⟨hf, hid⟩ := mem_withoutId.1 hf
      obtain ⟨r, hr, hf'⟩ := h.complete f hf hhas
      refine ⟨_, List.mem_map_of_mem hr, ?_⟩
      rw [Table.changed, hf'.hasKey, hid]
      exact ⟨hf'.key, hf'.values⟩
    · obtain rfl := List.mem_singleton.1 hf
      obtain ⟨g, hg, hid, hghas⟩ := hrow
      obtain ⟨r, hr, hg'⟩ := h.complete g hg hghas
      have hkey := (hg'.hasKey f.id).trans hid
      have hr' := hstands r hr hkey
      refine ⟨_, List.mem_map_of_mem hr, ?_⟩
      rw [Table.changed, hkey]
      exact ⟨hr'.key, hr'.values⟩

theorem updateRows (h : t.Represents u M) (hkeys : t.keys ≠ [])
    {change : List SqlValue → List SqlValue}
    (hchange : ∀ r, ∀ k ∈ t.keys, u.cell (change r) k = u.cell r k) :
    u.updateRows (Database.hasKey u t.keys id) change [] u.rows =
      some (u.rows.map (Table.changed (Database.hasKey u t.keys id) change)) := by
  exact Table.updateRows_eq (h.unique_ne_nil hkeys) (fun r _ _ => h.uniqueKey_congr (hchange r))
    h.distinct

/-- An entity is replaced by one that has the same row. -/
theorem congr (h : t.Represents u M) (hdistinct : M.Pairwise fun a b => a.hasId b.id = false)
    {f : Entity} (hf : f ∈ M) (hid : f.hasId e.id = true) (hrow : e.HasRow t ↔ f.HasRow t)
    (hvalues : ∀ row, f.Stands t u row → ∀ c ∈ t.columns,
      (storedValue (e.value t.name c)).same (u.cell row c) = true) :
    t.Represents u (withoutId M e.id ++ [e]) where
  toFits := h.toFits
  sound row hr := by
    obtain ⟨g, hg, hhas, hstands⟩ := h.sound row hr
    by_cases hgid : g.hasId e.id = true
    · have hsame : g.hasId f.id = true := sameKey_trans hgid (sameKey_symm hid)
      obtain rfl := eq_of_hasId hdistinct hg hf hsame
      exact ⟨e, List.mem_append_right _ (List.mem_singleton_self e), hrow.2 hhas,
        sameKey_trans hstands.key hid, hvalues row hstands⟩
    · rw [Bool.not_eq_true] at hgid
      exact ⟨g, List.mem_append_left _ (mem_withoutId.2 ⟨hg, hgid⟩), hhas, hstands⟩
  complete g hg hhas := by
    rcases List.mem_append.1 hg with hg | hg
    · exact h.complete g (mem_withoutId.1 hg).1 hhas
    · obtain rfl := List.mem_singleton.1 hg
      obtain ⟨row, hr, hstands⟩ := h.complete f hf (hrow.1 hhas)
      exact ⟨row, hr, sameKey_trans hstands.key hid, hvalues row hstands⟩

end TableMapping.Represents

end DialectSql
