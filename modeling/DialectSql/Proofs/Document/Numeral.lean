import DialectSql.Json.Reader
import Mathlib.Data.List.TakeWhile

namespace DialectSql.Json

/-- The numbers that are written as integers and read as integers. -/
def Fits (n : Int) : Prop := -0x8000000000000000 ≤ n ∧ n < 0x10000000000000000

/-- What may follow a number: no digit, and nothing that would make it a float. -/
def EndsNumber (rest : List Char) : Prop :=
  ∀ c ∈ rest.head?, c.isDigit = false ∧ c ≠ '.' ∧ c ≠ 'e' ∧ c ≠ 'E'

namespace Reader

theorem digitChar_ne_zero : ∀ n < 10, 0 < n → Nat.digitChar n ≠ '0' := by decide

theorem head_toDigits {n : Nat} (h : 0 < n) : (Nat.toDigits 10 n).head? ≠ some '0' := by
  induction n using Nat.strongRecOn with
  | ind n ih =>
      by_cases hlt : n < 10
      · rw [Nat.toDigits_of_lt_base hlt, List.head?_cons, Ne, Option.some.injEq]
        exact digitChar_ne_zero n hlt h
      · have hbase : 10 ≤ n := by omega
        have hhead := ih (n / 10) (by omega) (by omega)
        obtain ⟨c, cs, hcs⟩ :=
          List.exists_cons_of_ne_nil (Nat.toDigits_ne_nil (b := 10) (n := n / 10))
        rw [Nat.toDigits_of_base_le (by decide) hbase]
        rw [hcs] at hhead ⊢
        exact hhead

theorem digits_append {ds rest : List Char} (hd : ∀ d ∈ ds, d.isDigit = true)
    (h : EndsNumber rest) : digits (ds ++ rest) = (ds, rest) := by
  have hrest : rest.takeWhile Char.isDigit = [] ∧ rest.dropWhile Char.isDigit = rest := by
    cases rest with
    | nil => exact ⟨rfl, rfl⟩
    | cons c rest =>
        have hc := (h c rfl).1
        exact ⟨List.takeWhile_cons_of_neg (by simp [hc]), List.dropWhile_cons_of_neg (by simp [hc])⟩
  rw [digits, List.takeWhile_append_of_pos hd, List.dropWhile_append_of_pos hd, hrest.1, hrest.2,
    List.append_nil]

variable {rest : List Char}

theorem wholePart_toDigits (n : Nat) (h : EndsNumber rest) :
    wholePart (Nat.toDigits 10 n ++ rest) = some (Nat.toDigits 10 n, rest) := by
  have hdigits : digits (Nat.toDigits 10 n ++ rest) = (Nat.toDigits 10 n, rest) :=
    digits_append (fun d => Nat.isDigit_of_mem_toDigits (by decide) (by decide)) h
  have hlead : ¬((Nat.toDigits 10 n).head? = some '0' ∧ (Nat.toDigits 10 n).length ≠ 1) := by
    rintro ⟨hhead, hlength⟩
    cases n with
    | zero => exact hlength rfl
    | succ n => exact head_toDigits n.succ_pos hhead
  rw [wholePart, digits1, hdigits]
  simp [Nat.toDigits_ne_nil, hlead]

theorem fractionPart_none (h : EndsNumber rest) : fractionPart rest = some ([], rest) := by
  cases rest with
  | nil => rfl
  | cons c rest =>
      have hc := (h c rfl).2.1
      rw [fractionPart]
      rintro cs ⟨⟩
      exact hc rfl

theorem exponentPart_none (h : EndsNumber rest) : exponentPart rest = some (none, rest) := by
  cases rest with
  | nil => rfl
  | cons c rest =>
      have hc := (h c rfl).2.2
      rw [exponentPart.eq_def]
      exact if_neg (by simp [hc])

theorem numeral_toDigits (n : Nat) (h : EndsNumber rest) :
    numeral (Nat.toDigits 10 n ++ rest) = some (⟨false, Nat.toDigits 10 n, [], none⟩, rest) := by
  have hsign : ∀ cs, Nat.toDigits 10 n ++ rest ≠ '-' :: cs := by
    intro cs hcs
    obtain ⟨d, ds, hds⟩ := List.exists_cons_of_ne_nil (Nat.toDigits_ne_nil (b := 10) (n := n))
    have hdigit := Nat.isDigit_of_mem_toDigits (b := 10) (n := n) (by decide) (by decide)
      (hds ▸ List.mem_cons_self)
    rw [hds] at hcs
    cases hcs
    exact absurd hdigit (by decide)
  rw [numeral]
  · simp [wholePart_toDigits n h, fractionPart_none h, exponentPart_none h]
  · exact hsign

theorem numeral_minus_toDigits (n : Nat) (h : EndsNumber rest) :
    numeral ('-' :: (Nat.toDigits 10 n ++ rest)) =
      some (⟨true, Nat.toDigits 10 n, [], none⟩, rest) := by
  simp [numeral, wholePart_toDigits n h, fractionPart_none h, exponentPart_none h]

theorem digitsValue_toDigits (n : Nat) : digitsValue (Nat.toDigits 10 n) = n :=
  Nat.ofDigitChars_toDigits (by decide) (by decide)

theorem integer?_toDigits {n : Nat} (h : n < Nat.pow 2 64) :
    Numeral.integer? ⟨false, Nat.toDigits 10 n, [], none⟩ = some n := by
  have hfits : decide (n < Nat.pow 2 64) = true := decide_eq_true h
  simp only [Numeral.integer?, digitsValue_toDigits, hfits]
  rfl

theorem integer?_minus_toDigits {n : Nat} (hpos : 0 < n) (h : n ≤ Nat.pow 2 63) :
    Numeral.integer? ⟨true, Nat.toDigits 10 n, [], none⟩ = some (-(n : Int)) := by
  have hlow : decide (0 < n) = true := decide_eq_true hpos
  have hhigh : decide (n ≤ Nat.pow 2 63) = true := decide_eq_true h
  simp only [Numeral.integer?, digitsValue_toDigits, hlow, hhigh]
  rfl

/-- The text of an integer is read as the integer. -/
theorem numeral_int {n : Int} (hn : Fits n) (h : EndsNumber rest) :
    ∃ m, numeral ((toString n).toList ++ rest) = some (m, rest) ∧ m.integer? = some n := by
  obtain ⟨hlow, hhigh⟩ := hn
  cases n with
  | ofNat n =>
      have hdigits : (toString (Int.ofNat n)).toList = Nat.toDigits 10 n := by
        rw [show toString (Int.ofNat n) = toString n from rfl, Nat.toString_eq_ofList_toDigits,
          String.toList_ofList]
      have hlt : n < Nat.pow 2 64 := Int.ofNat_lt.1 hhigh
      rw [hdigits]
      exact ⟨_, numeral_toDigits n h, integer?_toDigits hlt⟩
  | negSucc n =>
      have hdigits : (toString (Int.negSucc n)).toList = '-' :: Nat.toDigits 10 (n + 1) := by
        rw [show toString (Int.negSucc n) = "-" ++ toString (n + 1) from rfl,
          Nat.toString_eq_ofList_toDigits, String.toList_append]
        exact congrArg ('-' :: ·) String.toList_ofList
      rw [hdigits]
      have hle : n + 1 ≤ Nat.pow 2 63 := by
        rw [show Nat.pow 2 63 = 0x8000000000000000 from rfl]
        omega
      exact ⟨_, numeral_minus_toDigits (n + 1) h, integer?_minus_toDigits n.succ_pos hle⟩

end Reader

end DialectSql.Json
