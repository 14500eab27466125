import DialectSql.Proofs.Entity.Analysis

namespace DialectSql

/-- What is recorded of the stored values of a table is what is stored. Columns may be left out. -/
def EntityValues.RecordedAgrees (v : EntityValues) (e : Entity) (t : TableMapping) : Prop :=
  ∀ c ∈ t.columns, ∀ p, v.previousValue? t.name c = some p → Agrees p (e.value t.name c)

instance (v : EntityValues) (e : Entity) (t : TableMapping) : Decidable (v.RecordedAgrees e t) :=
  inferInstanceAs (Decidable (∀ c ∈ t.columns, ∀ p ∈ v.previousValue? t.name c, _))

namespace ValuesAnalysis

variable {m : MutationTarget} {v : EntityValues} {t : TableMapping} {e : Entity}

theorem hadNonNull_eq_false_iff (name : String) : (analyze m v).hadNonNull name = false ↔
    ∀ s ∈ m.tables, s.name = name → hadNonNullValue v s = false := by
  rw [hadNonNull, analyze, ← Bool.not_eq_true, List.contains_iff_mem, List.mem_map]
  constructor
  · intro h s hs hname
    rw [← Bool.not_eq_true]
    exact fun hs' => h ⟨s, List.mem_filter.2 ⟨hs, hs'⟩, hname⟩
  · rintro h ⟨s, hs, hname⟩
    obtain ⟨hs, hs'⟩ := List.mem_filter.1 hs
    rw [h s hs hname] at hs'
    cases hs'

theorem hasPrevious_of_knownPrevious (ht : t ∈ m.tables) :
    (analyze m v).knownPrevious.contains t.name = v.hasPrevious t.name := by
  rw [Bool.eq_iff_iff, analyze, List.contains_iff_mem, List.mem_map]
  constructor
  · rintro ⟨s, hs, hname⟩
    rw [← hname]
    exact (List.mem_filter.1 hs).2
  · exact fun h => ⟨t, List.mem_filter.2 ⟨ht, h⟩, rfl⟩

/-- The analysis rules a row out where something of the table is recorded, and no value in it but
null. -/
theorem mayHaveRow_eq_false_iff (ht : t ∈ m.tables) : (analyze m v).mayHaveRow t.name = false ↔
    v.hasPrevious t.name = true ∧ ∀ s ∈ m.tables, s.name = t.name → ∀ c ∈ s.columns, ∀ p,
      v.previousValue? t.name c = some p → p.isNull = true := by
  rw [mayHaveRow, Bool.or_eq_false_iff, Bool.not_eq_false', hasPrevious_of_knownPrevious ht,
    hadNonNull_eq_false_iff]
  refine and_congr_right fun hknown => forall₂_congr fun s _ => forall_congr' fun hname => ?_
  rw [hadNonNullValue, hname, hknown, Bool.true_and, List.any_eq_false]
  refine forall₂_congr fun c _ => ?_
  cases v.previousValue? t.name c <;> simp

theorem hasRow_iff_unrecorded (ht : t ∈ m.tables) (hoptional : t.optional = true)
    (hrecorded : v.RecordedAgrees e t) (hmay : (analyze m v).mayHaveRow t.name = false) :
    e.HasRow t ↔ ∃ c ∈ t.columns, v.previousValue? t.name c = none ∧
      (e.value t.name c).isNull = false := by
  obtain ⟨-, hnull⟩ := (mayHaveRow_eq_false_iff ht).1 hmay
  constructor
  · intro hrow
    obtain ⟨c, hc, hvalue⟩ := hrow hoptional
    refine ⟨c, hc, ?_, hvalue⟩
    cases hprevious : v.previousValue? t.name c with
    | none => rfl
    | some p =>
        have hstored := (hrecorded c hc p hprevious).1
        rw [hnull t ht rfl c hc p hprevious, hvalue] at hstored
        cases hstored
  · rintro ⟨c, hc, -, hvalue⟩ -
    exact ⟨c, hc, hvalue⟩

end ValuesAnalysis

namespace OptionalUpdate

variable {op : OptionalUpdate} {a : ValuesAnalysis} {r : Running}

/-- With all values null and the row ruled out no statement is sent. -/
theorem perform_of_allNull (hmay : a.mayHaveRow op.table.name = false)
    (hnull : op.allNull r.bindings = true) :
    op.perform a r = (r.release op.table.name, .ok ()) := by
  rw [perform, hmay, hnull]
  rfl

/-- With a value to store and the row ruled out nothing but the insertion is sent. -/
theorem connection_of_value (hmay : a.mayHaveRow op.table.name = false)
    (hvalue : op.allNull r.bindings = false) :
    (op.perform a r).1.connection = (r.run op.insertion).1.connection := by
  rcases hrun : r.run op.insertion with ⟨r', inserted⟩
  rw [perform, hmay, hvalue, upsert, if_neg Bool.false_ne_true, if_neg Bool.false_ne_true]
  cases inserted with
  | error e => simp only [hrun]
  | ok count =>
      simp only [hrun]
      cases Expectation.verify (some 1) op.table.name count <;> rfl

end OptionalUpdate

open ValuesAnalysis in
/-- The analysis rules a row of an optional table out by the values that are recorded. There is a row
all the same exactly if a value that is not recorded is not null. Then it is left where it is when all
values are set to null, and any other values are inserted beside it. -/
theorem row_overlooked {m : MutationTarget} {t : TableMapping} (ht : t ∈ m.tables)
    (hoptional : t.optional = true) {v : EntityValues} {e : Entity}
    (hrecorded : v.RecordedAgrees e t) :
    ((analyze m v).mayHaveRow t.name = false ↔ v.hasPrevious t.name = true ∧
        ∀ s ∈ m.tables, s.name = t.name → ∀ c ∈ s.columns, ∀ p,
          v.previousValue? t.name c = some p → p.isNull = true) ∧
      ((analyze m v).mayHaveRow t.name = false →
        (e.HasRow t ↔ ∃ c ∈ t.columns, v.previousValue? t.name c = none ∧
          (e.value t.name c).isNull = false) ∧
        ∀ (op : OptionalUpdate) (r : Running), op.table = t →
          (op.allNull r.bindings = true → (op.perform (analyze m v) r).2 = .ok () ∧
            (op.perform (analyze m v) r).1.connection = r.connection) ∧
          (op.allNull r.bindings = false → (op.perform (analyze m v) r).1.connection =
            (r.run op.insertion).1.connection)) := by
  refine ⟨mayHaveRow_eq_false_iff ht,
    fun hmay => ⟨hasRow_iff_unrecorded ht hoptional hrecorded hmay, ?_⟩⟩
  rintro op r rfl
  refine ⟨fun hnull => ?_, OptionalUpdate.connection_of_value hmay⟩
  rw [OptionalUpdate.perform_of_allNull hmay hnull]
  exact ⟨rfl, rfl⟩

/-- A biography that is stored and not recorded, beside a note that is recorded as null. -/
theorem row_overlooked_biography :
    let detail : TableMapping := ⟨"person_detail", none, ["person_id"], ["bio", "note"], true⟩
    let m : MutationTarget := ⟨"Person", [⟨"person", none, ["id"], ["name"], false⟩, detail]⟩
    let v := (EntityValues.ofId [.int 1]).setPrevious "person_detail" "note" .null
    let e : Entity := ⟨[.int 1], fun _ column => if column = "bio" then .text "Poet" else .null⟩
    detail ∈ m.tables ∧ detail.optional = true ∧ v.RecordedAgrees e detail ∧
      (ValuesAnalysis.analyze m v).mayHaveRow "person_detail" = false ∧ e.HasRow detail := by
  intro detail m v e
  have hrecorded : v.RecordedAgrees e detail := by decide
  obtain ⟨hiff, hrow⟩ := row_overlooked (m := m) (t := detail) (by decide) rfl hrecorded
  have hmay := hiff.2 (by decide)
  exact ⟨by decide, rfl, hrecorded, hmay, (hrow hmay).1.2 ⟨"bio", by decide, by decide, by decide⟩⟩

end DialectSql
