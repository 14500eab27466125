import DialectSql.Value

namespace DialectSql

/-- A letter, a digit, or one of the marks in numbers and timestamps. -/
def isSimpleChar (c : Char) : Bool := c.isAlphanum || ['-', '+', '.', ':', ' '].contains c

def IsSimple (s : String) : Prop := ∀ c ∈ s.toList, isSimpleChar c = true

instance (s : String) : Decidable (IsSimple s) := List.decidableBAll _ _

namespace IsSimple

variable {a b : String}

theorem append (ha : IsSimple a) (hb : IsSimple b) : IsSimple (a ++ b) := by
  intro c hc
  rw [String.toList_append, List.mem_append] at hc
  exact hc.elim (ha c) (hb c)

theorem ofList {cs : List Char} (h : ∀ c ∈ cs, isSimpleChar c = true) :
    IsSimple (String.ofList cs) := by
  rwa [IsSimple, String.toList_ofList]

theorem ite {p : Prop} [Decidable p] (ha : IsSimple a) (hb : IsSimple b) :
    IsSimple (if p then a else b) := by
  split
  · exact ha
  · exact hb

/-- Digits to any base that has digits. -/
theorem digits {base : Nat} (h : 1 < base) (hbase : base ≤ 16) (n : Nat) :
    ∀ c ∈ Nat.toDigits base n, isSimpleChar c = true := by
  have hdigit : ∀ d < 16, isSimpleChar (Nat.digitChar d) = true := by decide
  induction n using Nat.strongRecOn with
  | _ n ih =>
      rw [Nat.toDigits_eq_if h]
      split
      · next hn =>
        rw [List.forall_mem_singleton]
        exact hdigit n (Nat.lt_of_lt_of_le hn hbase)
      · next hn =>
        have hsmaller : n / base < n := Nat.div_lt_self (by omega) h
        rw [List.forall_mem_append, List.forall_mem_singleton]
        exact ⟨ih _ hsmaller, hdigit _ (Nat.lt_of_lt_of_le (Nat.mod_lt n (by omega)) hbase)⟩

theorem nat (n : Nat) : IsSimple (toString n) := by
  rw [Nat.toString_eq_ofList_toDigits]
  exact ofList (digits (by decide) (by decide) n)

theorem int (n : Int) : IsSimple (toString n) := by
  cases n with
  | ofNat n => exact nat n
  | negSucc n => exact append (a := "-") (by decide) (nat (n + 1))

end IsSimple

namespace Decimal

theorem isSimple_zeros (n : Nat) : IsSimple (zeros n) :=
  .ofList fun c hc => by
    rw [List.eq_of_mem_replicate hc]
    rfl

theorem isSimple_positional (d : Decimal) : IsSimple d.positional := by
  have hdigits := IsSimple.nat d.digits
  have hpart {cs : List Char} (h : ∀ c ∈ cs, c ∈ (toString d.digits).toList) :
      IsSimple (String.ofList cs) := .ofList fun c hc => hdigits c (h c hc)
  rw [positional]
  refine .ite (hdigits.append (isSimple_zeros _)) (.ite ?_ ?_)
  · exact (IsSimple.append (by decide) (isSimple_zeros _)).append hdigits
  · exact ((hpart fun c => List.mem_of_mem_take).append (by decide)).append
      (hpart fun c => List.mem_of_mem_drop)

end Decimal

theorem Binary64.isSimple_statementText (x : Binary64) : IsSimple x.statementText := by
  have hsign : IsSimple (if x.isNegative then "-" else "") := .ite (by decide) (by decide)
  rw [statementText]
  refine .ite (by decide) (.ite (hsign.append (by decide)) ?_)
  cases x.natAbs? with
  | none => exact hsign.append (Decimal.isSimple_positional _)
  | some n => exact (hsign.append (.nat n)).append (by decide)

namespace Timestamp

theorem isSimple_padded (width n : Nat) : IsSimple (padded width n) :=
  (Decimal.isSimple_zeros _).append (.nat n)

theorem isSimple_yearText (year : Int) : IsSimple (yearText year) :=
  .ite (isSimple_padded _ _) (.append (.ite (by decide) (by decide)) (isSimple_padded _ _))

theorem isSimple_fractionText (nanosecond : Nat) : IsSimple (fractionText nanosecond) :=
  .ite (by decide) (.ite (.append (by decide) (isSimple_padded _ _))
    (.ite (.append (by decide) (isSimple_padded _ _)) (.append (by decide) (isSimple_padded _ _))))

theorem isSimple_sqlText (t : Timestamp) : IsSimple t.sqlText := by
  have hcolon : IsSimple ":" := by decide
  have hdash : IsSimple "-" := by decide
  have hblank : IsSimple " " := by decide
  have hyear := ((isSimple_yearText t.year).append hdash).append (isSimple_padded 2 t.month)
  have hday := ((hyear.append hdash).append (isSimple_padded 2 t.day)).append hblank
  have hminute := ((hday.append (isSimple_padded 2 t.hour)).append hcolon).append
    (isSimple_padded 2 t.minute)
  exact ((hminute.append hcolon).append (isSimple_padded 2 _)).append (isSimple_fractionText _)

end Timestamp

theorem isSimple_hexBytes (bytes : List UInt8) : IsSimple (hexBytes bytes) := by
  refine .ofList fun c hc => ?_
  obtain ⟨b, -, hb⟩ := List.mem_flatMap.1 hc
  have hdigit : ∀ n < 16, isSimpleChar (Nat.digitChar n).toUpper = true := by decide
  have hlow : b.toNat % 16 < 16 := Nat.mod_lt _ (by decide)
  have hhigh : b.toNat / 16 < 16 := Nat.div_lt_of_lt_mul b.toNat_lt
  simp only [hexByte, List.map_cons, List.map_nil, List.mem_cons, List.not_mem_nil, or_false] at hb
  rcases hb with rfl | rfl
  · exact hdigit _ hhigh
  · exact hdigit _ hlow

end DialectSql
