import DialectSql.Number.Binary64

namespace DialectSql.Binary64

variable {x y : Binary64}

theorem toNat_lt (x : Binary64) : x.bits.toNat < Nat.pow 2 64 := x.bits.toNat_lt

theorem fractionField_eq (x : Binary64) : x.fractionField = x.bits.toNat % Nat.pow 2 52 := by
  rw [fractionField, UInt64.toNat_and]
  exact Nat.and_two_pow_sub_one_eq_mod x.bits.toNat 52

theorem exponentField_eq (x : Binary64) :
    x.exponentField = x.bits.toNat / Nat.pow 2 52 % Nat.pow 2 11 := by
  rw [exponentField, UInt64.toNat_and, UInt64.toNat_shiftRight]
  change x.bits.toNat >>> 52 &&& (Nat.pow 2 11 - 1) = _
  rw [Nat.shiftRight_eq_div_pow]
  exact Nat.and_two_pow_sub_one_eq_mod _ 11

theorem isNegative_iff (x : Binary64) : x.isNegative = true ↔ x.bits.toNat / Nat.pow 2 63 = 1 := by
  rw [isNegative, beq_iff_eq, ← UInt64.toNat_inj, UInt64.toNat_shiftRight]
  change x.bits.toNat >>> 63 = 1 ↔ _
  rw [Nat.shiftRight_eq_div_pow]

theorem fractionField_lt (x : Binary64) : x.fractionField < Nat.pow 2 52 := by
  rw [fractionField_eq]
  exact Nat.mod_lt _ (by decide)

theorem eq_of_fields (hs : x.isNegative = y.isNegative) (he : x.exponentField = y.exponentField)
    (hf : x.fractionField = y.fractionField) : x.bits = y.bits := by
  have hx := toNat_lt x
  have hy := toNat_lt y
  have hsign : x.bits.toNat / Nat.pow 2 63 = 1 ↔ y.bits.toNat / Nat.pow 2 63 = 1 := by
    rw [← isNegative_iff, ← isNegative_iff, hs]
  rw [exponentField_eq, exponentField_eq] at he
  rw [fractionField_eq, fractionField_eq] at hf
  apply UInt64.toNat_inj.1
  have h52 : Nat.pow 2 52 = 4503599627370496 := rfl
  have h11 : Nat.pow 2 11 = 2048 := rfl
  have h63 : Nat.pow 2 63 = 9223372036854775808 := rfl
  have h64 : Nat.pow 2 64 = 18446744073709551616 := rfl
  rw [h52] at he hf
  rw [h11] at he
  rw [h63] at hsign
  rw [h64] at hx hy
  omega

/-- The number of halvings of the least positive number's double that a field stands for. -/
def scale (x : Binary64) : Nat := x.exponentField - 1

theorem significand_bounds (x : Binary64) :
    x.significand < Nat.pow 2 53 ∧ (x.exponentField ≠ 0 → Nat.pow 2 52 ≤ x.significand) ∧
      (x.exponentField = 0 → x.significand < Nat.pow 2 52) := by
  have hfraction := fractionField_lt x
  have h52 : Nat.pow 2 52 = 4503599627370496 := rfl
  have h53 : Nat.pow 2 53 = 9007199254740992 := rfl
  rw [significand]
  rw [h52] at hfraction ⊢
  rw [h53]
  split <;> omega

/-- A finite integer in units of the least positive number. -/
theorem significand_scale {a : Nat} (h : x.natAbs? = some a) :
    x.significand * Nat.pow 2 x.scale = a * Nat.pow 2 1074 := by
  rw [natAbs?] at h
  split at h
  · cases h
  · by_cases hexponent : 0 ≤ x.exponent
    · rw [if_pos hexponent] at h
      obtain rfl := Option.some.inj h
      by_cases hzero : x.exponentField = 0
      · simp [exponent, hzero] at hexponent
      · have hscale : x.scale = x.exponent.toNat + 1074 := by
          rw [exponent, if_neg hzero] at hexponent ⊢
          rw [scale]
          omega
        have hsplit (n : Nat) : Nat.pow 2 (x.exponent.toNat + n) =
            Nat.pow 2 x.exponent.toNat * Nat.pow 2 n := Nat.pow_add ..
        generalize 1074 = shift at hscale ⊢
        rw [hscale, hsplit, ← Nat.mul_assoc]
    · rw [if_neg hexponent] at h
      dsimp only at h
      split at h
      · rename_i hdivides
        obtain rfl := Option.some.inj h
        have hunit : (-x.exponent).toNat + x.scale = 1074 := by
          by_cases hzero : x.exponentField = 0
          · simp [exponent, scale, hzero]
          · rw [exponent, if_neg hzero] at hexponent ⊢
            rw [scale]
            omega
        have hdiv := Nat.div_mul_cancel (Nat.dvd_of_mod_eq_zero hdivides)
        have hsplit : Nat.pow 2 ((-x.exponent).toNat + x.scale) =
            Nat.pow 2 (-x.exponent).toNat * Nat.pow 2 x.scale := Nat.pow_add ..
        rw [← hunit, hsplit, ← Nat.mul_assoc, hdiv]
      · cases h

theorem isFinite_of_natAbs? {a : Nat} (h : x.natAbs? = some a) : x.isFinite = true := by
  cases hfinite : x.isFinite with
  | true => rfl
  | false =>
      rw [natAbs?, hfinite, if_pos (by decide)] at h
      cases h

theorem isNaN_of_isFinite (h : x.isFinite = true) : x.isNaN = false := by
  have hlt : x.exponentField < 2047 := of_decide_eq_true h
  rw [isNaN, beq_eq_false_iff_ne.2 (Nat.ne_of_lt hlt)]
  rfl

theorem significand_scale_lt (h : x.exponentField < y.exponentField) :
    x.significand * Nat.pow 2 x.scale < y.significand * Nat.pow 2 y.scale := by
  obtain ⟨hx, -, hsubnormal⟩ := significand_bounds x
  have hy := (significand_bounds y).2.1 (Nat.ne_of_gt (Nat.zero_lt_of_lt h))
  by_cases hzero : x.exponentField = 0
  · have hscale : x.scale = 0 := by rw [scale, hzero]
    calc x.significand * Nat.pow 2 x.scale = x.significand := by rw [hscale]; exact Nat.mul_one _
      _ < y.significand := Nat.lt_of_lt_of_le (hsubnormal hzero) hy
      _ ≤ y.significand * Nat.pow 2 y.scale := Nat.le_mul_of_pos_right _ (Nat.two_pow_pos _)
  · have hscale : x.scale + 1 ≤ y.scale := by
      rw [scale, scale]
      omega
    calc x.significand * Nat.pow 2 x.scale < Nat.pow 2 53 * Nat.pow 2 x.scale :=
          Nat.mul_lt_mul_of_pos_right hx (Nat.two_pow_pos _)
      _ = Nat.pow 2 52 * Nat.pow 2 (x.scale + 1) := by
          have hsucc : Nat.pow 2 (x.scale + 1) = Nat.pow 2 x.scale * 2 := Nat.pow_succ ..
          rw [hsucc, Nat.mul_comm (Nat.pow 2 x.scale), ← Nat.mul_assoc]
      _ ≤ Nat.pow 2 52 * Nat.pow 2 y.scale :=
          Nat.mul_le_mul_left _ (Nat.pow_le_pow_right (by decide) hscale)
      _ ≤ y.significand * Nat.pow 2 y.scale := Nat.mul_le_mul_right _ hy

theorem fields_of_natAbs? {a : Nat} (hx : x.natAbs? = some a) (hy : y.natAbs? = some a) :
    x.exponentField = y.exponentField ∧ x.fractionField = y.fractionField := by
  have hscaled : x.significand * Nat.pow 2 x.scale = y.significand * Nat.pow 2 y.scale :=
    (significand_scale hx).trans (significand_scale hy).symm
  have hexponent : x.exponentField = y.exponentField := by
    rcases Nat.lt_trichotomy x.exponentField y.exponentField with hlt | heq | hlt
    · exact absurd hscaled (Nat.ne_of_lt (significand_scale_lt hlt))
    · exact heq
    · exact absurd hscaled (Nat.ne_of_gt (significand_scale_lt hlt))
  refine ⟨hexponent, ?_⟩
  have hsignificand : x.significand = y.significand := by
    have hscale : x.scale = y.scale := by rw [scale, scale, hexponent]
    rw [hscale] at hscaled
    exact Nat.eq_of_mul_eq_mul_right (Nat.two_pow_pos _) hscaled
  rw [significand, significand, hexponent] at hsignificand
  split at hsignificand
  · exact hsignificand
  · exact Nat.add_left_cancel hsignificand

theorem isZero_of_natAbs? (h : x.natAbs? = some 0) : x.isZero = true := by
  have hscaled : x.significand * Nat.pow 2 x.scale = 0 := by
    simpa only [Nat.zero_mul] using significand_scale h
  have hsignificand : x.significand = 0 :=
    (Nat.mul_eq_zero.1 hscaled).resolve_right (Nat.ne_of_gt (Nat.two_pow_pos _))
  by_cases hzero : x.exponentField = 0
  · rw [significand, if_pos hzero] at hsignificand
    rw [isZero, hzero, hsignificand]
    rfl
  · have hbound := (significand_bounds x).2.1 hzero
    rw [hsignificand] at hbound
    exact absurd hbound (by decide)

theorem toInt?_of_natAbs? {a : Nat} (h : x.natAbs? = some a) :
    x.toInt? = some (if x.isNegative then -(a : Int) else (a : Int)) := by
  rw [toInt?, h]
  rfl

theorem natAbs?_of_toInt? {n : Int} (h : x.toInt? = some n) :
    ∃ a, x.natAbs? = some a ∧ (if x.isNegative then -(a : Int) else (a : Int)) = n := by
  cases hnat : x.natAbs? with
  | none =>
      rw [toInt?, hnat] at h
      cases h
  | some a => exact ⟨a, rfl, Option.some.inj ((toInt?_of_natAbs? hnat).symm.trans h)⟩

theorem numericEq_of_toInt? {n : Int} (hx : x.toInt? = some n) (hy : y.toInt? = some n) :
    x.numericEq y = true := by
  obtain ⟨a, ha, hxn⟩ := natAbs?_of_toInt? hx
  obtain ⟨b, hb, hyn⟩ := natAbs?_of_toInt? hy
  have hab : a = b := by
    split at hxn <;> split at hyn <;> omega
  subst hab
  have hnan := isNaN_of_isFinite (isFinite_of_natAbs? ha)
  have hnan' := isNaN_of_isFinite (isFinite_of_natAbs? hb)
  rw [numericEq, hnan, hnan']
  by_cases hzero : a = 0
  · subst hzero
    rw [isZero_of_natAbs? ha, isZero_of_natAbs? hb]
    exact Bool.or_true _
  · obtain ⟨hexponent, hfraction⟩ := fields_of_natAbs? ha hb
    have hsign : x.isNegative = y.isNegative := by
      cases hxs : x.isNegative <;> cases hys : y.isNegative <;> simp [hxs, hys] at hxn hyn <;>
        first
        | rfl
        | omega
    rw [eq_of_fields hsign hexponent hfraction, beq_self_eq_true]
    rfl

theorem toInt?_of_isZero (h : x.isZero = true) : x.toInt? = some 0 := by
  simp only [isZero, Bool.and_eq_true, beq_iff_eq] at h
  have hfinite : x.isFinite = true := by simp [isFinite, h.1]
  have hsignificand : x.significand = 0 := by rw [significand, if_pos h.1, h.2]
  have habs : x.natAbs? = some 0 := by
    rw [natAbs?, hfinite, hsignificand]
    simp only [Bool.not_true, Bool.false_eq_true, if_false, Nat.zero_mul, Nat.zero_mod, Nat.zero_div,
      if_true, ite_self]
  rw [toInt?_of_natAbs? habs]
  simp

/-- Numbers that are equal as numbers are the same integer, if they are one. -/
theorem toInt?_congr (h : x.numericEq y = true) : x.toInt? = y.toInt? := by
  simp only [numericEq, Bool.and_eq_true, Bool.or_eq_true, beq_iff_eq] at h
  obtain ⟨-, hbits | ⟨hx, hy⟩⟩ := h
  · obtain rfl : x = y := by
      cases x
      cases y
      simp_all
    rfl
  · rw [toInt?_of_isZero hx, toInt?_of_isZero hy]

theorem numericEq_self (h : x.isNaN = false) : x.numericEq x = true := by
  rw [numericEq, h, beq_self_eq_true]
  rfl

theorem numericEq_symm (h : x.numericEq y = true) : y.numericEq x = true := by
  simp only [numericEq, Bool.and_eq_true, Bool.or_eq_true, beq_iff_eq] at h ⊢
  exact ⟨h.1.symm, h.2.imp Eq.symm And.symm⟩

theorem numericEq_trans {z : Binary64} (hxy : x.numericEq y = true) (hyz : y.numericEq z = true) :
    x.numericEq z = true := by
  have hzero {u v : Binary64} (h : u.bits = v.bits) : u.isZero = v.isZero := by
    rw [isZero, isZero, exponentField, exponentField, fractionField, fractionField, h]
  simp only [numericEq, Bool.and_eq_true, Bool.or_eq_true, beq_iff_eq] at hxy hyz ⊢
  refine ⟨⟨hxy.1.1, hyz.1.2⟩, ?_⟩
  rcases hxy.2 with hbits | ⟨hx, hy⟩
  · rcases hyz.2 with hbits' | ⟨hy', hz⟩
    · exact .inl (hbits.trans hbits')
    · exact .inr ⟨(hzero hbits).trans hy', hz⟩
  · rcases hyz.2 with hbits' | ⟨hy', hz⟩
    · exact .inr ⟨hx, (hzero hbits').symm.trans hy⟩
    · exact .inr ⟨hx, hz⟩

end DialectSql.Binary64
