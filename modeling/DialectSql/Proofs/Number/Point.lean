import DialectSql.Number.Notation
import DialectSql.Proofs.Number.Integral
import Mathlib.Algebra.Order.Field.Power
import Mathlib.Data.Rat.Cast.Order
import Mathlib.Tactic.Linarith
import Mathlib.Tactic.Positivity
import Mathlib.Tactic.Ring

namespace DialectSql

namespace Decimal

def value (d : Decimal) : ℚ := d.digits * 10 ^ d.exponent

theorem value_stripZeros (fuel : Nat) (d : Decimal) : (d.stripZeros fuel).value = d.value := by
  induction fuel generalizing d with
  | zero => rfl
  | succ fuel ih =>
      rw [stripZeros]
      split
      · rename_i hzero
        have hdigits : d.digits = 10 * (d.digits / 10) := by omega
        rw [ih, value, value, zpow_add₀ (by norm_num), zpow_one]
        conv_rhs => rw [hdigits]
        push_cast
        ring
      · rfl

/-- Without a fraction a decimal is a natural number. -/
theorem value_of_exponent {d : Decimal} (h : 0 ≤ d.exponent) :
    d.value = (d.digits * 10 ^ d.exponent.toNat : Nat) := by
  rw [value]
  conv_lhs => rw [← Int.toNat_of_nonneg h]
  push_cast
  rw [zpow_natCast]

theorem point_mem_positional {d : Decimal} (h : d.exponent < 0) : '.' ∈ d.positional.toList := by
  rw [positional, if_neg (by omega)]
  split <;> simp [String.toList_append]

end Decimal

namespace Binary64

namespace Interval

/-- The numbers of an interval as far as its ends go. -/
def Holds (i : Interval) (q : ℚ) : Prop := i.low ≤ q * i.den ∧ q * i.den ≤ i.high

variable {i : Interval}

/-- A scaled interval has the same numbers, in units of a power of ten. -/
theorem scale_spec (i : Interval) (exponent : Int) : ∃ c : ℚ, 0 < c ∧
    (i.scale exponent).low = c * i.low ∧ (i.scale exponent).value = c * i.value ∧
    (i.scale exponent).high = c * i.high ∧
    (i.scale exponent).den = c * (10 ^ exponent * i.den) := by
  rw [scale]
  split
  · rename_i hexponent
    refine ⟨1, one_pos, by simp, by simp, by simp, ?_⟩
    have hpower : (10 : ℚ) ^ exponent = 10 ^ exponent.toNat := by
      rw [← zpow_natCast, Int.toNat_of_nonneg hexponent]
    simp [hpower, mul_comm]
  · rename_i hexponent
    have hpower : (10 : ℚ) ^ (-exponent).toNat * 10 ^ exponent = 1 := by
      rw [← zpow_natCast, Int.toNat_of_nonneg (by omega), ← zpow_add₀ (by norm_num)]
      simp
    refine ⟨10 ^ (-exponent).toNat, by positivity, ?_, ?_, ?_, ?_⟩
    · simp [mul_comm]
    · simp [mul_comm]
    · simp [mul_comm]
    · rw [← mul_assoc, hpower, one_mul]

theorem holds_of_contains {exponent : Int} {n : Nat}
    (h : (i.scale exponent).contains n = true) : i.Holds (Decimal.value ⟨n, exponent⟩) := by
  have hends : (i.scale exponent).low ≤ n * (i.scale exponent).den ∧
      n * (i.scale exponent).den ≤ (i.scale exponent).high := by
    rw [contains] at h
    split at h <;> simp at h <;> omega
  obtain ⟨c, hc, hlow, -, hhigh, hden⟩ := i.scale_spec exponent
  have hleft : ((i.scale exponent).low : ℚ) ≤ n * (i.scale exponent).den := by
    exact_mod_cast hends.1
  have hright : (n * (i.scale exponent).den : ℚ) ≤ (i.scale exponent).high := by
    exact_mod_cast hends.2
  rw [hlow, hden] at hleft
  rw [hhigh, hden] at hright
  constructor
  · refine le_of_mul_le_mul_left (hleft.trans_eq ?_) hc
    simp only [Decimal.value]
    ring
  · refine le_of_mul_le_mul_left (Eq.trans_le ?_ hright) hc
    simp only [Decimal.value]
    ring

theorem contains_of_nearest {i : Interval} {tie : Tie} {n : Nat} (h : i.nearest? tie = some n) :
    i.contains n = true := by
  have hpick (p : Nat × Nat) (h : (if i.contains p.1 then some p.1
      else if i.contains p.2 then some p.2 else none) = some n) : i.contains n = true := by
    split at h
    · rename_i hfirst
      rwa [← Option.some_inj.1 h]
    · split at h
      · rename_i hsecond
        rwa [← Option.some_inj.1 h]
      · cases h
  exact hpick _ h

/-- What is found holds in the interval, or is its value cut off at the last place. -/
theorem search_spec (i : Interval) (hden : 0 < i.den) (tie : Tie) (fuel : Nat) (exponent : Int) :
    i.Holds (i.search tie fuel exponent).value ∨
      (i.search tie fuel exponent).value * i.den ≤ i.value ∧
        i.value < ((i.search tie fuel exponent).value + 10 ^ (exponent - fuel)) * i.den := by
  induction fuel generalizing exponent with
  | zero =>
      right
      obtain ⟨c, hc, -, hvalue, -, hscaled⟩ := i.scale_spec exponent
      have hpositive : (0 : ℚ) < (i.scale exponent).den := by
        rw [hscaled]
        positivity
      have hfloor : (((i.scale exponent).value / (i.scale exponent).den : Nat) : ℚ) *
          (i.scale exponent).den ≤ (i.scale exponent).value := by
        exact_mod_cast Nat.div_mul_le_self _ _
      have hnext : ((i.scale exponent).value : ℚ) <
          (((i.scale exponent).value / (i.scale exponent).den : Nat) + 1) *
            (i.scale exponent).den := by
        exact_mod_cast Nat.lt_mul_of_div_lt (Nat.lt_succ_self _) (by exact_mod_cast hpositive)
      rw [hvalue, hscaled] at hfloor hnext
      rw [search]
      simp only [Decimal.value, Nat.cast_zero, sub_zero]
      constructor
      · refine le_of_mul_le_mul_left (Eq.trans_le ?_ hfloor) hc
        ring
      · refine lt_of_mul_lt_mul_left (hnext.trans_eq ?_) hc.le
        ring
  | succ fuel ih =>
      rw [search]
      split
      · rename_i n hn
        exact .inl (holds_of_contains (contains_of_nearest hn))
      · have hexponent : exponent - ↑(fuel + 1) = exponent - 1 - fuel := by push_cast; ring
        rw [hexponent]
        exact ih (exponent - 1)

theorem pow_length_toDigits_le {n : Nat} (hn : 0 < n) :
    10 ^ ((Nat.toDigits 10 n).length - 1) ≤ n := by
  by_contra hlt
  have hlength : 0 < (Nat.toDigits 10 n).length := List.length_pos_iff.2 Nat.toDigits_ne_nil
  rcases Nat.eq_zero_or_pos ((Nat.toDigits 10 n).length - 1) with hone | hmore
  · rw [hone, pow_zero] at hlt
    omega
  · have hle := (Nat.length_toDigits_le_iff (by decide) hmore).2 (Nat.lt_of_not_le hlt)
    omega

theorem leadingExponent_le {i : Interval} (hvalue : 0 < i.value) :
    (10 : ℚ) ^ i.leadingExponent * i.den ≤ i.value := by
  have hvaluePower := pow_length_toDigits_le hvalue
  have hdigits : 0 < (Nat.toDigits 10 i.value).length :=
    List.length_pos_iff.2 Nat.toDigits_ne_nil
  have hdenPower : i.den < 10 ^ (Nat.toDigits 10 i.den).length :=
    (Nat.length_toDigits_le_iff (by decide) (List.length_pos_iff.2 Nat.toDigits_ne_nil)).1 le_rfl
  rw [leadingExponent]
  split
  · rename_i hfits
    obtain ⟨c, hc, -, hscaled, -, hunit⟩ := i.scale_spec
      (((Nat.toDigits 10 i.value).length : Int) - ((Nat.toDigits 10 i.den).length : Int))
    have hfits := (Nat.cast_le (α := ℚ)).2 hfits
    rw [hscaled, hunit] at hfits
    exact le_of_mul_le_mul_left hfits hc
  · generalize (Nat.toDigits 10 i.value).length = above at hvaluePower hdigits ⊢
    generalize (Nat.toDigits 10 i.den).length = below at hdenPower ⊢
    calc (10 : ℚ) ^ ((above : Int) - below - 1) * i.den
        ≤ 10 ^ ((above : Int) - below - 1) * 10 ^ below := by
          gcongr
          exact_mod_cast hdenPower.le
      _ = 10 ^ (above - 1) := by
          rw [← zpow_natCast, ← zpow_natCast, ← zpow_add₀ (by norm_num)]
          congr 1
          omega
      _ ≤ i.value := by exact_mod_cast hvaluePower

end Interval

theorem fraction_of_natAbs? {x : Binary64} (hfinite : x.isFinite = true)
    (h : x.natAbs? = none) :
    x.exponent < 0 ∧ x.significand % Nat.pow 2 (-x.exponent).toNat ≠ 0 := by
  rw [natAbs?, hfinite, if_neg (by decide)] at h
  split at h
  · cases h
  · rename_i hexponent
    dsimp only at h
    split at h
    · cases h
    · rename_i hrest
      exact ⟨by omega, hrest⟩

/-- In the interval of a number with a fraction no end is half a unit away. -/
theorem interval_of_fraction {x : Binary64} (h : x.exponent < 0) :
    4 * x.significand ≤ x.interval.low + 2 ∧ x.interval.value = 4 * x.significand ∧
      x.interval.high = 4 * x.significand + 2 ∧
      x.interval.den = 4 * Nat.pow 2 (-x.exponent).toNat := by
  have hunit : (x.exponent - 2).toNat = 0 := by omega
  have hden : (-(x.exponent - 2)).toNat = (-x.exponent).toNat + 2 := by omega
  have hpow : Nat.pow 2 ((-x.exponent).toNat + 2) = 4 * Nat.pow 2 (-x.exponent).toNat := by
    change 2 ^ _ = 4 * 2 ^ _
    ring
  have hone : Nat.pow 2 0 = 1 := rfl
  simp only [interval, hunit, hden, hpow, hone, Nat.mul_one, and_true]
  split <;> omega

/-- A multiple of the unit that is less than a unit away from the value is the value. -/
theorem mul_unit_eq {m n u : Nat} (hlow : 4 * m < n * (4 * u) + 4) (hhigh : n * (4 * u) < 4 * m + 4) :
    n * u = m := by
  have hproduct : n * (4 * u) = 4 * (n * u) := by ring
  rw [hproduct] at hlow hhigh
  omega

/-- Seventeen digits behind its leading one, the place of a digit is less than a unit. -/
theorem lastPlace_lt {lead : ℤ} {m u : Nat} (hm : m < 10 ^ 17)
    (hlead : (10 : ℚ) ^ lead * ((4 * u : Nat) : ℚ) ≤ ((4 * m : Nat) : ℚ)) :
    (10 : ℚ) ^ (lead - (17 : Nat)) * ((4 * u : Nat) : ℚ) < 4 := by
  have hsmall : (m : ℚ) < 10 ^ 17 := by exact_mod_cast hm
  rw [zpow_sub₀ (by norm_num), zpow_natCast, div_mul_eq_mul_div, div_lt_iff₀ (by positivity)]
  push_cast at hlead ⊢
  linarith

/-- A number with a fraction is written with one. -/
theorem exponent_shortest {x : Binary64} (hfinite : x.isFinite = true) (h : x.natAbs? = none)
    (tie : Tie) : (x.shortest tie).exponent < 0 := by
  obtain ⟨hexponent, hrest⟩ := fraction_of_natAbs? hfinite h
  obtain ⟨hlow, hvalue, hhigh, hden⟩ := interval_of_fraction hexponent
  have hsignificand := (significand_bounds x).1
  have hzero : x.isZero = false := by
    by_contra hzero
    have hfields : x.exponentField = 0 ∧ x.fractionField = 0 := by simpa [isZero] using hzero
    exact hrest (by rw [significand, if_pos hfields.1, hfields.2, Nat.zero_mod])
  generalize hunit : Nat.pow 2 (-x.exponent).toNat = u at *
  generalize x.significand = m at *
  have hu : 0 < u := hunit ▸ Nat.two_pow_pos _
  have hm : 0 < m := Nat.pos_of_ne_zero fun hzero => hrest (by rw [hzero, Nat.zero_mod])
  rw [shortest, hzero, if_neg Bool.false_ne_true]
  dsimp only
  by_contra hnot
  have hnatural := Decimal.value_of_exponent (Int.not_lt.1 hnot)
  rw [Decimal.value_stripZeros] at hnatural
  -- a natural number in the interval, or next to its value, is the value itself
  have hdivides (n : Nat) : n * u ≠ m := fun heq => hrest (by rw [← heq, Nat.mul_mod_left])
  generalize Decimal.digits _ * 10 ^ _ = n at hnatural
  have hspec := x.interval.search_spec (by omega) tie 17 x.interval.leadingExponent
  rw [hnatural, hden, hvalue] at hspec
  rcases hspec with ⟨hleft, hright⟩ | ⟨hleft, hright⟩
  · rw [hden] at hleft hright
    rw [hhigh] at hright
    have hleft : x.interval.low ≤ n * (4 * u) := by exact_mod_cast hleft
    have hright : n * (4 * u) ≤ 4 * m + 2 := by exact_mod_cast hright
    exact hdivides n (mul_unit_eq (by omega) (by omega))
  · have hlead := x.interval.leadingExponent_le (by omega)
    rw [hden, hvalue] at hlead
    have hplaces := lastPlace_lt (hsignificand.trans (by decide)) hlead
    have hleft : n * (4 * u) ≤ 4 * m := by exact_mod_cast hleft
    have hright : ((4 * m : Nat) : ℚ) < ((n * (4 * u) + 4 : Nat) : ℚ) := by
      refine hright.trans ?_
      push_cast at hplaces ⊢
      linarith
    exact hdivides n (mul_unit_eq (by exact_mod_cast hright) (by omega))

/-- No number that is not an integer is written as one, and an integer is written with a point. -/
theorem exists_notDigit_statementText (x : Binary64) :
    ∃ c ∈ x.statementText.toList, c.isDigit = false := by
  rw [statementText]
  split
  · exact ⟨'N', by decide, rfl⟩
  split
  · refine ⟨'i', ?_, rfl⟩
    split <;> decide
  · rename_i hnan hinf
    split
    · refine ⟨'.', ?_, rfl⟩
      simp [String.toList_append]
    · rename_i hnone
      refine ⟨'.', ?_, rfl⟩
      have hpoint := Decimal.point_mem_positional (exponent_shortest (by simpa using hinf) hnone .up)
      simp [String.toList_append, hpoint]

end Binary64

end DialectSql
