import DialectSql.Proofs.Entity.Run

namespace DialectSql

open Store

namespace MutationTarget

/-- The tables of an entity are told apart by their names, have keys of one length and no column
twice, and the first table has a row for each entity. -/
structure WellFormed (m : MutationTarget) : Prop where
  names : (m.tables.map (·.name)).Nodup
  keys : ∀ t ∈ m.tables, t.keys ≠ []
  keyLength : ∀ s ∈ m.tables, ∀ t ∈ m.tables, s.keys.length = t.keys.length
  columns : ∀ t ∈ m.tables, (t.keys ++ t.columns).Nodup
  root : ∃ t, m.identifierTable? = some t ∧ t.optional = false

/-- The tables of the database hold the rows of the entities, and no other row. -/
def Represents (m : MutationTarget) (db : Database) (M : EntityMap) : Prop :=
  ∀ t ∈ m.tables, t.HoldsIn db M.entities

instance (m : MutationTarget) (db : Database) (M : EntityMap) : Decidable (m.Represents db M) :=
  inferInstanceAs (Decidable (∀ t ∈ m.tables, _))

/-- An entity that can be added: its identifier is a key, and no entity has it. -/
structure Fresh (m : MutationTarget) (M : EntityMap) (v : EntityValues) : Prop where
  length : ∀ t ∈ m.tables, t.keys.length = v.id.length
  noNull : ∀ x ∈ v.id, storedValue x ≠ .null
  absent : ¬ M.Has v.id

/-- A change of an entity: of each table nothing is known, or all that is stored. -/
structure Known (m : MutationTarget) (M : EntityMap) (v : EntityValues) : Prop where
  present : M.Has v.id
  previous : ∀ e ∈ M.entities, e.hasId v.id = true → ∀ t ∈ m.tables, v.PreviousAgrees e t

/-- The names of all tables are names to the database. -/
def Readable (m : MutationTarget) : Prop := ∀ t ∈ m.tables, t.Readable

instance (m : MutationTarget) : Decidable m.Readable :=
  inferInstanceAs (Decidable (∀ t ∈ m.tables, _))

end MutationTarget

namespace Coordinator

variable {m : MutationTarget} {v : EntityValues} {c : Connection} {M : EntityMap}

theorem keyLength_of_has (h : m.WellFormed) (hM : m.Represents c.database M) (hhas : M.Has v.id) :
    ∀ t ∈ m.tables, t.keys.length = v.id.length := by
  obtain ⟨root, hroot, hrequired⟩ := h.root
  obtain ⟨f, hf, hid⟩ := hhas
  have hmem : root ∈ m.tables := List.mem_of_mem_head? hroot
  -- the root table has a row for the entity, and so gives the length of its identifier
  obtain ⟨u, -, hrep⟩ := hM root hmem
  obtain ⟨row, -, hstands⟩ := hrep.complete f hf fun h => absurd h (by simp [hrequired])
  have hlength := length_eq_of_sameKey (sameKey_trans hstands.key hid)
  intro t ht
  rw [h.keyLength t ht root hmem]
  simpa using hlength

theorem build_eq (hdialect : c.dialect = .sqlite) (mutation : MutationType) :
    MutationGroup.build c.dialect m mutation =
      .ok ⟨mutation, m, MutationGroup.operationsOf .question m mutation⟩ := by
  rw [hdialect]
  exact MutationGroup.build_eq .sqlite m mutation

theorem insert_ok (h : m.WellFormed) (hread : m.Readable) (hdialect : c.dialect = .sqlite)
    (hM : m.Represents c.database M) (hv : m.Fresh M v) :
    ∃ c', insert m v c = (c', .ok ()) ∧ m.Represents c'.database (M.put v.entity) := by
  have hnew : ∀ f ∈ M.entities, f.hasId v.id = false := fun f hf =>
    Bool.eq_false_iff.2 fun hid => hv.absent ⟨f, hf, hid⟩
  obtain ⟨c', hmutate, hholds, -⟩ := mutate_ok .insert (fun _ => rfl) (build_eq hdialect .insert)
    h.names hv.length (fun t ht => TableMapping.keyed_of_nodup (h.columns t ht))
    (fun t _ => t.described_insertOperation .question)
    (fun t ht => insertOperation_turns (hread t ht) h.names ht (h.keys t ht) (h.columns t ht)
      hv.noNull hnew) hM
  exact ⟨c', hmutate, hholds⟩

theorem holdsIn_put_of_columns_eq_nil {t : TableMapping} {db : Database} (hcolumns : t.columns = [])
    (hhas : M.Has v.id) (hM : t.HoldsIn db M.entities) : t.HoldsIn db (M.put v.entity).entities := by
  obtain ⟨f, hf, hid⟩ := hhas
  obtain ⟨u, hu, hrep⟩ := hM
  refine ⟨u, hu, hrep.congr (e := v.entity) M.distinct hf hid ?_ ?_⟩
  · rw [Entity.HasRow, Entity.HasRow, hcolumns]
    simp
  · rw [hcolumns]
    exact fun _ _ c hc => absurd hc List.not_mem_nil

theorem update_ok (h : m.WellFormed) (hread : m.Readable) (hdialect : c.dialect = .sqlite)
    (hM : m.Represents c.database M) (hv : m.Known M v) :
    ∃ c', update m v c = (c', .ok ()) ∧ m.Represents c'.database (M.put v.entity) := by
  have hlength := keyLength_of_has h hM hv.present
  obtain ⟨f, hf, hid⟩ := hv.present
  have hwritten {t : TableMapping} :
      t ∈ m.tables.filter (fun t => !t.columns.isEmpty) ↔ t ∈ m.tables ∧ t.columns ≠ [] := by
    simp
  obtain ⟨c', hmutate, hholds, hothers⟩ := mutate_ok .update
    (fun t => t.table_updateOperation .question) (build_eq hdialect .update)
    (h.names.sublist (List.filter_sublist.map _)) (fun t ht => hlength t (hwritten.1 ht).1)
    (fun t ht => TableMapping.keyed_of_nodup (h.columns t (hwritten.1 ht).1))
    (fun t _ => t.described_updateOperation .question)
    (fun t ht => by
      obtain ⟨ht, hcolumns⟩ := hwritten.1 ht
      exact Updates.turns ⟨hread t ht, h.names, ht, h.keys t ht, hcolumns, h.columns t ht,
        M.distinct, hf, hid, hv.previous f hf hid t ht⟩)
    (fun t ht => hM t (hwritten.1 ht).1)
  -- an update leaves out the tables of keys only, whose rows stand for the new values as well
  refine ⟨c', hmutate, fun t ht => ?_⟩
  by_cases hcolumns : t.columns = []
  · refine holdsIn_put_of_columns_eq_nil hcolumns hv.present ?_
    obtain ⟨u, hu, hrep⟩ := hM t ht
    refine ⟨u, (hothers t.tableName ?_).trans hu, hrep⟩
    intro hname
    obtain ⟨s, hs, hsame⟩ := List.mem_map.1 hname
    obtain ⟨hs, hne⟩ := hwritten.1 hs
    rw [eq_of_name h.names hs ht hsame] at hne
    exact hne hcolumns
  · exact hholds t (hwritten.2 ⟨ht, hcolumns⟩)

theorem delete_ok (h : m.WellFormed) (hread : m.Readable) (hdialect : c.dialect = .sqlite)
    (hM : m.Represents c.database M) (hhas : M.Has v.id) :
    ∃ c', delete m v c = (c', .ok ()) ∧ m.Represents c'.database (M.erase v.id) := by
  have hlength := keyLength_of_has h hM hhas
  have hmem {t : TableMapping} (ht : t ∈ m.tables.reverse) : t ∈ m.tables := List.mem_reverse.1 ht
  obtain ⟨c', hmutate, hholds, -⟩ := mutate_ok .delete (fun _ => rfl) (build_eq hdialect .delete)
    (by rw [List.map_reverse]; exact List.nodup_reverse.2 h.names)
    (fun t ht => hlength t (hmem ht))
    (fun t ht => TableMapping.keyed_of_nodup (h.columns t (hmem ht)))
    (fun t _ => t.described_deleteOperation .question)
    (fun t ht => deleteOperation_turns (hread t (hmem ht)) hhas _)
    (fun t ht => hM t (hmem ht))
  exact ⟨c', hmutate, fun t ht => hholds t (List.mem_reverse.2 ht)⟩

/-- The tables refine the entities: adding, changing and deleting an entity succeeds, and the tables
then represent the entities with it added, changed or deleted. -/
theorem mutations_refine (h : m.WellFormed) (hread : m.Readable) (hdialect : c.dialect = .sqlite)
    (hM : m.Represents c.database M) (v : EntityValues) :
    (m.Fresh M v →
      ∃ c', insert m v c = (c', .ok ()) ∧ m.Represents c'.database (M.put v.entity)) ∧
    (m.Known M v →
      ∃ c', update m v c = (c', .ok ()) ∧ m.Represents c'.database (M.put v.entity)) ∧
    (M.Has v.id →
      ∃ c', delete m v c = (c', .ok ()) ∧ m.Represents c'.database (M.erase v.id)) :=
  ⟨insert_ok h hread hdialect hM, update_ok h hread hdialect hM, delete_ok h hread hdialect hM⟩

/-- A person's tables; the second one has a row only for a person with a bio. -/
def personTarget : MutationTarget :=
  ⟨"Person", [⟨"person", none, ["id"], ["name", "age"], false⟩,
    ⟨"person_detail", none, ["person_id"], ["bio"], true⟩]⟩

def ada : EntityValues :=
  ⟨[.int 1], [(("person", "name"), .text "Ada"), (("person", "age"), .int 36),
    (("person_detail", "bio"), .text "M")], []⟩

def adaWithoutBio : EntityValues :=
  ⟨[.int 1], [(("person", "name"), .text "Ada"), (("person", "age"), .int 36)],
    [(("person_detail", "bio"), .text "M")]⟩

def grace : EntityValues := ⟨[.int 2], [(("person", "name"), .text "Grace")], []⟩

def personDatabase : Database :=
  [⟨"person", ["id", "name", "age"], ["id"], [[.int 1, .text "Ada", .int 36]]⟩,
    ⟨"person_detail", ["person_id", "bio"], ["person_id"], [[.int 1, .text "M"]]⟩]

theorem mutations_refine_person :
    let c := Connection.start .sqlite personDatabase
    let M := EntityMap.empty.put ada.entity
    (∃ c', insert personTarget grace c = (c', .ok ()) ∧
        personTarget.Represents c'.database (M.put grace.entity)) ∧
      (∃ c', update personTarget adaWithoutBio c = (c', .ok ()) ∧
        personTarget.Represents c'.database (M.put adaWithoutBio.entity)) ∧
      ∃ c', delete personTarget ada c = (c', .ok ()) ∧
        personTarget.Represents c'.database (M.erase ada.id) := by
  intro c M
  have hwellFormed : personTarget.WellFormed :=
    ⟨by decide +kernel, by decide, by decide, by decide +kernel, _, rfl, rfl⟩
  have hread : personTarget.Readable := by decide +kernel
  have hM : personTarget.Represents c.database M := by decide +kernel
  have hada : M.Has ada.id := by decide +kernel
  refine ⟨(mutations_refine hwellFormed hread rfl hM grace).1 ?_,
    (mutations_refine hwellFormed hread rfl hM adaWithoutBio).2.1 ⟨hada, ?_⟩,
    (mutations_refine hwellFormed hread rfl hM ada).2.2 hada⟩
  · exact ⟨by decide, by decide, by decide +kernel⟩
  · decide +kernel

/-- A name that is no name to the database fails, as statements carry names as they are. -/
theorem insert_name_with_blank :
    let t : TableMapping := ⟨"person", none, ["id"], ["full name"], false⟩
    let m : MutationTarget := ⟨"Person", [t]⟩
    let db : Database := [⟨"person", ["id", "full name"], ["id"], []⟩]
    let v : EntityValues := ⟨[.int 1], [(("person", "full name"), .text "Ada")], []⟩
    m.WellFormed ∧ m.Represents db .empty ∧ m.Fresh .empty v ∧
      (insert m v (.start .sqlite db)).2 = .error .database ∧
      ¬ ∃ c', insert m v (.start .sqlite db) = (c', .ok ()) ∧
        m.Represents c'.database (EntityMap.empty.put v.entity) := by
  intro t m db v
  have hfails : (insert m v (.start .sqlite db)).2 = .error .database := by decide +kernel
  have hM : m.Represents db .empty := by decide +kernel
  refine ⟨⟨by decide, by decide, by decide, by decide +kernel, _, rfl, rfl⟩, hM,
    ⟨by decide, by decide, by decide⟩, hfails, ?_⟩
  · rintro ⟨c', hinsert, -⟩
    rw [hinsert] at hfails
    cases hfails

end Coordinator

end DialectSql
