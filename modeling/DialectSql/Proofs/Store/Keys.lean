import DialectSql.Proofs.Number.Integral
import DialectSql.Store.Database

namespace DialectSql.Store

/-- A value that a table can hold. -/
def IsStored (v : SqlValue) : Prop := storedValue v = v

theorem isStored_storedValue (v : SqlValue) : IsStored (storedValue v) := by
  cases v with
  | float x =>
      by_cases hnan : x.isNaN
      · simp [IsStored, storedValue, hnan]
      · simp [IsStored, storedValue, hnan]
  | _ => rfl

variable {a b c : SqlValue}

theorem equalValues_symm (h : equalValues a b = true) : equalValues b a = true := by
  cases a <;> cases b <;> simp_all [equalValues]
  exact Binary64.numericEq_symm h

theorem equalValues_self (hv : IsStored a) (hn : a ≠ .null) : equalValues a a = true := by
  cases a with
  | null => exact absurd rfl hn
  | bool b => cases hv
  | int n => simp [equalValues]
  | float x =>
      have hnan : x.isNaN = false := by
        cases h : x.isNaN with
        | false => rfl
        | true => simp [IsStored, storedValue, h] at hv
      exact Binary64.numericEq_self hnan
  | text s => simp [equalValues]
  | blob bytes => simp [equalValues]
  | timestamp t => cases hv

/-- The integer that a number is, if it is one. -/
def integer? : SqlValue → Option Int
  | .int n => some n.toInt
  | .float x => x.toInt?
  | _ => none

theorem integer?_congr (h : equalValues a b = true) : integer? a = integer? b := by
  cases a <;> cases b <;> simp_all [equalValues, integer?]
  exact Binary64.toInt?_congr h

theorem equalValues_of_integer? {n : Int} (ha : integer? a = some n) (hb : integer? b = some n) :
    equalValues a b = true := by
  cases a <;> cases b <;> simp_all [equalValues, integer?]
  · exact Int64.toInt_inj.1 (ha.trans hb.symm)
  · exact Binary64.numericEq_of_toInt? ha hb

/-- Equality between numbers of both types goes through the integers. -/
theorem equalValues_trans (hab : equalValues a b = true) (hbc : equalValues b c = true) :
    equalValues a c = true := by
  cases hinteger : integer? b with
  | some n =>
      exact equalValues_of_integer? ((integer?_congr hab).trans hinteger)
        ((integer?_congr hbc).symm.trans hinteger)
  | none =>
      have ha := (integer?_congr hab).trans hinteger
      have hc := (integer?_congr hbc).symm.trans hinteger
      cases a <;> cases b <;> cases c <;> simp_all [equalValues, integer?]
      exact Binary64.numericEq_trans hab hbc

def sameKey : List SqlValue → List SqlValue → Bool
  | [], [] => true
  | a :: as, b :: bs => equalValues a b && sameKey as bs
  | _, _ => false

variable {as bs cs : List SqlValue}

theorem sameKey_symm (h : sameKey as bs = true) : sameKey bs as = true := by
  induction as generalizing bs with
  | nil =>
      cases bs with
      | nil => rfl
      | cons b bs => cases h
  | cons a as ih =>
      cases bs with
      | nil => cases h
      | cons b bs =>
          obtain ⟨hab, hrest⟩ := Bool.and_eq_true_iff.1 h
          exact Bool.and_eq_true_iff.2 ⟨equalValues_symm hab, ih hrest⟩

theorem sameKey_trans (hab : sameKey as bs = true) (hbc : sameKey bs cs = true) :
    sameKey as cs = true := by
  induction as generalizing bs cs with
  | nil =>
      cases bs with
      | nil => exact hbc
      | cons b bs => cases hab
  | cons a as ih =>
      cases bs with
      | nil => cases hab
      | cons b bs =>
          cases cs with
          | nil => cases hbc
          | cons c cs =>
              obtain ⟨hab, hrest⟩ := Bool.and_eq_true_iff.1 hab
              obtain ⟨hbc, hrest'⟩ := Bool.and_eq_true_iff.1 hbc
              exact Bool.and_eq_true_iff.2 ⟨equalValues_trans hab hbc, ih hrest hrest'⟩

theorem sameKey_congr (h : sameKey as bs = true) : sameKey as cs = sameKey bs cs := by
  cases hbs : sameKey bs cs with
  | true => exact sameKey_trans h hbs
  | false =>
      cases has : sameKey as cs with
      | false => rfl
      | true => exact absurd (sameKey_trans (sameKey_symm h) has) (by simp [hbs])

theorem sameKey_self (h : ∀ a ∈ as, IsStored a ∧ a ≠ .null) : sameKey as as = true := by
  induction as with
  | nil => rfl
  | cons a as ih =>
      obtain ⟨hstored, hnull⟩ := h a (List.mem_cons_self ..)
      exact Bool.and_eq_true_iff.2 ⟨equalValues_self hstored hnull,
        ih fun b hb => h b (List.mem_cons_of_mem _ hb)⟩

theorem length_eq_of_sameKey (h : sameKey as bs = true) : as.length = bs.length := by
  induction as generalizing bs with
  | nil =>
      cases bs with
      | nil => rfl
      | cons b bs => cases h
  | cons a as ih =>
      cases bs with
      | nil => cases h
      | cons b bs => exact congrArg (· + 1) (ih (Bool.and_eq_true_iff.1 h).2)

theorem zipWith_equalValues (h : as.length = bs.length) :
    (List.zipWith equalValues as bs).all id = sameKey as bs := by
  induction as generalizing bs with
  | nil =>
      cases bs with
      | nil => rfl
      | cons b bs => cases h
  | cons a as ih =>
      cases bs with
      | nil => cases h
      | cons b bs =>
          rw [List.zipWith_cons_cons, List.all_cons, ih (Nat.succ.inj h), sameKey]
          rfl

theorem sameRow_self (h : ∀ a ∈ as, IsStored a) : sameRow as as = true := by
  induction as with
  | nil => rfl
  | cons a as ih =>
      rw [List.forall_mem_cons] at h
      rw [sameRow, ih h.2, Bool.and_true, Bool.or_eq_true]
      by_cases hnull : a = .null
      · exact .inr (by rw [hnull]; rfl)
      · exact .inl (equalValues_self h.1 hnull)

theorem sameRow_of_sameKey (h : sameKey as bs = true) : sameRow as bs = true := by
  induction as generalizing bs with
  | nil =>
      cases bs with
      | nil => rfl
      | cons b bs => cases h
  | cons a as ih =>
      cases bs with
      | nil => cases h
      | cons b bs =>
          obtain ⟨hab, hrest⟩ := Bool.and_eq_true_iff.1 h
          rw [sameRow, hab, ih hrest]
          rfl

/-- Values that are equal to something are not null, and so the same only if equal. -/
theorem sameKey_of_sameRow (hab : sameRow as bs = true) (hac : sameKey as cs = true) :
    sameKey as bs = true := by
  induction as generalizing bs cs with
  | nil =>
      cases bs with
      | nil => rfl
      | cons b bs => cases hab
  | cons a as ih =>
      cases cs with
      | nil => cases hac
      | cons c cs =>
          cases bs with
          | nil => cases hab
          | cons b bs =>
              obtain ⟨hequal, hac⟩ := Bool.and_eq_true_iff.1 hac
              obtain ⟨hsame, hab⟩ := Bool.and_eq_true_iff.1 hab
              have hnull : a.isNull = false := by cases a <;> first | rfl | cases hequal
              rw [hnull, Bool.false_and, Bool.or_false] at hsame
              exact Bool.and_eq_true_iff.2 ⟨hsame, ih hab hac⟩

end DialectSql.Store
