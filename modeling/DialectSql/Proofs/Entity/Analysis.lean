import DialectSql.Proofs.Entity.Steps
import Mathlib.Data.List.Nodup

namespace DialectSql

open Store

namespace SqlValue

variable {a b c : SqlValue}

theorem same_iff : a.same b = true ↔
    (∃ x y, a = .float x ∧ b = .float y ∧ x.numericEq y = true) ∨ (a = b ∧ ∀ x, a ≠ .float x) := by
  cases a <;> cases b <;> simp [same]

theorem same_symm (h : a.same b = true) : b.same a = true := by
  rcases same_iff.1 h with ⟨x, y, rfl, rfl, hxy⟩ | ⟨rfl, ha⟩
  · exact same_iff.2 (.inl ⟨y, x, rfl, rfl, Binary64.numericEq_symm hxy⟩)
  · exact h

theorem same_trans (hab : a.same b = true) (hbc : b.same c = true) : a.same c = true := by
  rcases same_iff.1 hab with ⟨x, y, rfl, rfl, hxy⟩ | ⟨rfl, ha⟩
  · rcases same_iff.1 hbc with ⟨y', z, hy, rfl, hyz⟩ | ⟨rfl, hb⟩
    · cases hy
      exact same_iff.2 (.inl ⟨x, z, rfl, rfl, Binary64.numericEq_trans hxy hyz⟩)
    · exact absurd rfl (hb y)
  · exact hbc

theorem isNull_of_same (h : a.same b = true) : a.isNull = b.isNull := by
  rcases same_iff.1 h with ⟨x, y, rfl, rfl, -⟩ | ⟨rfl, -⟩ <;> rfl

theorem same_storedValue (h : a.same b = true) : (storedValue a).same (storedValue b) = true := by
  rcases same_iff.1 h with ⟨x, y, rfl, rfl, hxy⟩ | ⟨rfl, -⟩
  · have hnan := hxy
    simp only [Binary64.numericEq, Bool.and_eq_true, Bool.not_eq_true'] at hnan
    simp only [storedValue, hnan.1.1, hnan.1.2, Bool.false_eq_true, if_false]
    exact hxy
  · exact same_self (isStored_storedValue a)

end SqlValue

theorem eq_of_name {ts : List TableMapping} (h : (ts.map (·.name)).Nodup) {s t : TableMapping}
    (hs : s ∈ ts) (ht : t ∈ ts) (hname : s.name = t.name) : s = t :=
  List.inj_on_of_nodup_map h hs ht hname

theorem contains_names {ts : List TableMapping} (h : (ts.map (·.name)).Nodup)
    (p : TableMapping → Bool) {t : TableMapping} (ht : t ∈ ts) :
    ((ts.filter p).map (·.name)).contains t.name = p t := by
  rw [Bool.eq_iff_iff, List.contains_iff_mem, List.mem_map]
  constructor
  · rintro ⟨s, hs, hname⟩
    obtain ⟨hs, hp⟩ := List.mem_filter.1 hs
    rwa [← eq_of_name h hs ht hname]
  · intro hp
    exact ⟨t, List.mem_filter.2 ⟨ht, hp⟩, rfl⟩

namespace EntityValues

/-- What is known of a column's stored value is what is stored, or was to be stored. -/
def Agrees (known stored : SqlValue) : Prop :=
  known.isNull = stored.isNull ∧ (storedValue known).same (storedValue stored) = true

/-- For a table nothing is known of the stored values, or all of them are known. -/
def PreviousAgrees (v : EntityValues) (e : Entity) (t : TableMapping) : Prop :=
  v.hasPrevious t.name = false ∨
    ∀ c ∈ t.columns, ∃ p, v.previousValue? t.name c = some p ∧ Agrees p (e.value t.name c)

instance (known stored : SqlValue) : Decidable (Agrees known stored) :=
  inferInstanceAs (Decidable (_ ∧ _))

instance (v : EntityValues) (e : Entity) (t : TableMapping) : Decidable (v.PreviousAgrees e t) :=
  inferInstanceAs (Decidable (_ ∨ ∀ c ∈ t.columns, ∃ p ∈ v.previousValue? t.name c, _))

end EntityValues

namespace ValuesAnalysis

variable {m : MutationTarget} {v : EntityValues} {t : TableMapping} {e : Entity}

theorem hasNonNullValue_iff : hasNonNullValue v t = true ↔
    ∃ c ∈ t.columns, (v.value t.name c).isNull = false := by
  simp [hasNonNullValue]

theorem hasRow_iff : v.entity.HasRow t ↔ (!t.optional || hasNonNullValue v t) = true := by
  rw [Bool.or_eq_true, Bool.not_eq_true', hasNonNullValue_iff, Entity.HasRow]
  cases t.optional <;> simp [EntityValues.entity]

theorem includesInsert_iff (h : (m.tables.map (·.name)).Nodup) (ht : t ∈ m.tables) :
    (analyze m v).includesInsert t = true ↔ v.entity.HasRow t := by
  rw [hasRow_iff, includesInsert, hasNonNull, analyze, contains_names h _ ht]

theorem includesUpdate_eq (h : (m.tables.map (·.name)).Nodup) (ht : t ∈ m.tables) :
    (analyze m v).includesUpdate t = isChanged v t := by
  rw [includesUpdate, needsUpdate, analyze, contains_names h _ ht]

theorem mayHaveRow_eq (h : (m.tables.map (·.name)).Nodup) (ht : t ∈ m.tables) :
    (analyze m v).mayHaveRow t.name = (!v.hasPrevious t.name || hadNonNullValue v t) := by
  rw [mayHaveRow, hadNonNull, analyze, contains_names h _ ht, contains_names h _ ht]

/-- Where the previous state rules a row out there is none. -/
theorem not_hasRow_of_mayHaveRow (h : (m.tables.map (·.name)).Nodup) (ht : t ∈ m.tables)
    (hoptional : t.optional = true) (hprevious : v.PreviousAgrees e t)
    (hmay : (analyze m v).mayHaveRow t.name = false) : ¬ e.HasRow t := by
  rw [mayHaveRow_eq h ht, Bool.or_eq_false_iff, Bool.not_eq_false'] at hmay
  obtain ⟨hknown, hnull⟩ := hmay
  intro hrow
  obtain ⟨c, hc, hvalue⟩ := hrow hoptional
  rcases hprevious with hunknown | hall
  · rw [hknown] at hunknown
    cases hunknown
  · obtain ⟨p, hp, hagrees, -⟩ := hall c hc
    rw [hadNonNullValue, hknown, Bool.true_and, List.any_eq_false] at hnull
    refine hnull c hc ?_
    rw [hp, Option.any_some, hagrees, hvalue]
    rfl

theorem agrees_of_unchanged (hprevious : v.PreviousAgrees e t) (h : isChanged v t = false) :
    ∀ c ∈ t.columns, (v.value t.name c).isNull = (e.value t.name c).isNull ∧
      (storedValue (v.value t.name c)).same (storedValue (e.value t.name c)) = true := by
  rw [isChanged, Bool.or_eq_false_iff, Bool.not_eq_false', List.any_eq_false] at h
  obtain ⟨hknown, hsame⟩ := h
  intro c hc
  rcases hprevious with hunknown | hall
  · rw [hknown] at hunknown
    cases hunknown
  · obtain ⟨p, hp, hnull, hstored⟩ := hall c hc
    have hpv := hsame c hc
    rw [hp] at hpv
    simp only [Bool.not_eq_true', Bool.not_eq_false] at hpv
    exact ⟨(SqlValue.isNull_of_same hpv).symm.trans hnull,
      SqlValue.same_trans (SqlValue.same_symm (SqlValue.same_storedValue hpv)) hstored⟩

theorem hasRow_of_unchanged (hprevious : v.PreviousAgrees e t) (h : isChanged v t = false) :
    v.entity.HasRow t ↔ e.HasRow t := by
  have hagrees := agrees_of_unchanged hprevious h
  constructor
  · intro hrow hoptional
    obtain ⟨c, hc, hvalue⟩ := hrow hoptional
    exact ⟨c, hc, (hagrees c hc).1.symm.trans hvalue⟩
  · intro hrow hoptional
    obtain ⟨c, hc, hvalue⟩ := hrow hoptional
    exact ⟨c, hc, (hagrees c hc).1.trans hvalue⟩

end ValuesAnalysis

end DialectSql
