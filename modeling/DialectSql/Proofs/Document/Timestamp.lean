import DialectSql.Timestamp
import Mathlib.Data.List.TakeWhile

namespace DialectSql.Timestamp

theorem digitsValue_padding (k : Nat) (ds : List Char) :
    digitsValue (List.replicate k '0' ++ ds) = digitsValue ds := by
  induction k with
  | zero => rfl
  | succ k ih => exact ih

theorem toList_padded (width n : Nat) : (padded width n).toList =
    List.replicate (width - (Nat.toDigits 10 n).length) '0' ++ Nat.toDigits 10 n := by
  rw [padded, String.toList_append, String.toList_ofList, Nat.toString_eq_ofList_toDigits,
    String.toList_ofList, ← String.length_toList, String.toList_ofList]

theorem digitsValue_padded (width n : Nat) : digitsValue (padded width n).toList = n := by
  rw [toList_padded, digitsValue_padding]
  exact Nat.ofDigitChars_toDigits (by decide) (by decide)

theorem isDigit_of_mem_padded {width n : Nat} {c : Char} (h : c ∈ (padded width n).toList) :
    c.isDigit = true := by
  rw [toList_padded, List.mem_append] at h
  obtain h | h := h
  · obtain rfl := List.eq_of_mem_replicate h
    rfl
  · exact Nat.isDigit_of_mem_toDigits (by decide) (by decide) h

theorem length_padded {width n : Nat} (hpos : 0 < width) (h : n < Nat.pow 10 width) :
    (padded width n).toList.length = width := by
  have hle := (Nat.length_toDigits_le_iff (by decide) hpos).2 h
  rw [toList_padded, List.length_append, List.length_replicate]
  omega

theorem padded_ne_nil (width n : Nat) : (padded width n).toList ≠ [] := by
  rw [toList_padded]
  simp [Nat.toDigits_ne_nil]

/-- A run of digits is read whole, up to a width that they fill or a character that is no digit. -/
theorem readDigits_append {width : Nat} {ds rest : List Char} (hd : ∀ c ∈ ds, c.isDigit = true)
    (hne : ds ≠ []) (hwidth : ds.length ≤ width)
    (hstop : (rest.take (width - ds.length)).takeWhile Char.isDigit = []) :
    readDigits width (ds ++ rest) = some (digitsValue ds, rest) := by
  have hrun : ((ds ++ rest).take width).takeWhile Char.isDigit = ds := by
    rw [List.take_append, List.take_of_length_le hwidth, List.takeWhile_append_of_pos hd, hstop,
      List.append_nil]
  simp [readDigits, hrun, hne]

variable (rest : List Char)

theorem isBlank_of_isDigit {c : Char} (h : c.isDigit = true) : isBlank c = false := by
  simp only [Char.isDigit, Bool.and_eq_true, decide_eq_true_eq, ge_iff_le] at h
  have hlow : 48 ≤ c.toNat := h.1
  have hhigh : c.toNat ≤ 57 := h.2
  simp only [isBlank, Bool.or_eq_false_iff, Bool.and_eq_false_iff, decide_eq_false_iff_not,
    beq_eq_false_iff_ne]
  omega

theorem padded_eq_cons (width n : Nat) :
    ∃ c cs, (padded width n).toList = c :: cs ∧ c.isDigit = true := by
  obtain ⟨c, cs, hcs⟩ := List.exists_cons_of_ne_nil (padded_ne_nil width n)
  have hc : c ∈ (padded width n).toList := by simp [hcs]
  exact ⟨c, cs, hcs, isDigit_of_mem_padded hc⟩

theorem skipBlanks_padded (width n : Nat) :
    skipBlanks ((padded width n).toList ++ rest) = (padded width n).toList ++ rest := by
  obtain ⟨c, cs, hcs, hc⟩ := padded_eq_cons width n
  rw [hcs, List.cons_append]
  exact List.dropWhile_cons_of_neg (by simp [isBlank_of_isDigit hc])

theorem readDigits_padded {width n : Nat} (hpos : 0 < width) (h : n < Nat.pow 10 width) :
    readDigits width ((padded width n).toList ++ rest) = some (n, rest) := by
  have hlength := length_padded hpos h
  rw [readDigits_append (fun _ => isDigit_of_mem_padded) (padded_ne_nil width n) hlength.le
    (by simp [hlength]), digitsValue_padded]

theorem readNumber_padded {n : Nat} (h : n < 100) :
    readNumber ((padded 2 n).toList ++ rest) = some (n, rest) := by
  rw [readNumber, skipBlanks_padded]
  exact readDigits_padded rest (by decide) h

theorem readYear_padded {n : Nat} (h : n < 10000) :
    readYear ((padded 4 n).toList ++ rest) = some ((n : Int), rest) := by
  have hread : readDigits 4 ((padded 4 n).toList ++ rest) = some (n, rest) :=
    readDigits_padded rest (by decide) h
  obtain ⟨c, cs, hcs, hc⟩ := padded_eq_cons 4 n
  rw [readYear, skipBlanks_padded]
  rw [hcs, List.cons_append] at hread ⊢
  split
  · cases ‹c :: (cs ++ rest) = _›
    exact absurd hc (by decide)
  · cases ‹c :: (cs ++ rest) = _›
    exact absurd hc (by decide)
  · rw [hread]
    rfl

/-- Behind a sign a year is read up to the hyphen, however long. -/
theorem readDigits_year (n : Nat) :
    readDigits ((padded 4 n).toList ++ '-' :: rest).length ((padded 4 n).toList ++ '-' :: rest) =
      some (n, '-' :: rest) := by
  have hstop (k : Nat) : (('-' :: rest).take k).takeWhile Char.isDigit = [] := by
    cases k <;> rfl
  rw [readDigits_append (fun _ => isDigit_of_mem_padded) (padded_ne_nil 4 n) (by simp) (hstop _),
    digitsValue_padded]

theorem readYear_yearText (year : Int) :
    readYear ((yearText year).toList ++ '-' :: rest) = some (year, '-' :: rest) := by
  rw [yearText]
  split
  · rw [readYear_padded _ (by omega)]
    congr
    omega
  · have hminus (cs : List Char) : skipBlanks ('-' :: cs) = '-' :: cs := rfl
    have hplus (cs : List Char) : skipBlanks ('+' :: cs) = '+' :: cs := rfl
    rw [String.toList_append, List.append_assoc]
    split
    · rw [show "-".toList = ['-'] from rfl, List.singleton_append]
      simp only [readYear, hminus, readDigits_year, Option.map_some]
      congr
      omega
    · rw [show "+".toList = ['+'] from rfl, List.singleton_append]
      simp only [readYear, hplus, readDigits_year, Option.map_some]
      congr
      omega

theorem readFraction_padded {width n : Nat} (hpos : 0 < width) (hwidth : width ≤ 9)
    (h : n < Nat.pow 10 width) :
    readFraction ('.' :: (padded width n).toList) = some (n * Nat.pow 10 (9 - width), []) := by
  have hlength := length_padded hpos h
  have hdigits : (padded width n).toList.takeWhile Char.isDigit = (padded width n).toList :=
    List.takeWhile_eq_self_iff.2 fun _ => isDigit_of_mem_padded
  have hrest : (padded width n).toList.dropWhile Char.isDigit = [] :=
    List.dropWhile_eq_nil_iff.2 fun _ => isDigit_of_mem_padded
  have hrun :
      ((padded width n).toList.take 9).takeWhile Char.isDigit = (padded width n).toList := by
    rw [List.take_of_length_le (by omega), hdigits]
  have hne : padded width n ≠ "" := fun h => padded_ne_nil width n (by simp [h])
  simp [readFraction, hrun, hrest, hne, digitsValue_padded, hlength]

theorem readFraction_fractionText (nanosecond : Nat) :
    readFraction (fractionText nanosecond).toList = some (nanosecond % 1000000000, []) := by
  have hlt : nanosecond % 1000000000 < 1000000000 := Nat.mod_lt _ (by decide)
  generalize hn : nanosecond % 1000000000 = n at hlt
  have hpoint (width k : Nat) :
      ("." ++ padded width k).toList = '.' :: (padded width k).toList := by
    rw [String.toList_append]
    rfl
  rw [fractionText, hn]
  split
  · subst_vars
    simp [readFraction, *]
  split
  · rw [hpoint, readFraction_padded (by decide) (by decide) (show n / 1000000 < 1000 by omega)]
    simp
    omega
  split
  · rw [hpoint, readFraction_padded (by decide) (by decide) (show n / 1000 < 1000000 by omega)]
    simp
    omega
  · rw [hpoint, readFraction_padded (by decide) (by decide) hlt]
    simp

theorem expect_cons {c : Char} (hc : isBlank c = false) : expect c (c :: rest) = some rest := by
  have hskip : skipBlanks (c :: rest) = c :: rest := List.dropWhile_cons_of_neg (by simp [hc])
  simp [expect, hskip]

theorem toList_documentText (t : Timestamp) : t.documentText.toList =
    (yearText t.year).toList ++ '-' :: ((padded 2 t.month).toList ++ '-' ::
      ((padded 2 t.day).toList ++ 'T' :: ((padded 2 t.hour).toList ++ ':' ::
        ((padded 2 t.minute).toList ++ ':' ::
          ((padded 2 (t.second + t.nanosecond / 1000000000)).toList ++
            (fractionText t.nanosecond).toList))))) := by
  simp [documentText, text]

theorem day_le {year : Int} {month day : Nat} (h : day ≤ daysInMonth year month) : day ≤ 31 := by
  refine h.trans ?_
  rw [daysInMonth.eq_def]
  split
  · split <;> decide
  all_goals decide

/-- A timestamp is read from its document form; second 60 is its leap second. -/
theorem parse?_documentText {t : Timestamp} (h : t.Valid) : parse? t.documentText = some t := by
  obtain ⟨-, -, -, hmonth, -, hday, hhour, hminute, hsecond, hnano, hleap⟩ := id h
  have hday := day_le hday
  have hdash (cs : List Char) : expect '-' ('-' :: cs) = some cs := expect_cons cs rfl
  have hcolon (cs : List Char) : expect ':' (':' :: cs) = some cs := expect_cons cs rfl
  have htime (cs : List Char) : expect 'T' ('T' :: cs) = some cs := expect_cons cs rfl
  rw [parse?, toList_documentText]
  simp only [readYear_yearText, Option.bind_eq_bind, Option.bind_some, hdash, hcolon, htime,
    readNumber_padded _ (show t.month < 100 by omega),
    readNumber_padded _ (show t.day < 100 by omega),
    readNumber_padded _ (show t.hour < 100 by omega),
    readNumber_padded _ (show t.minute < 100 by omega),
    readNumber_padded _ (show t.second + t.nanosecond / 1000000000 < 100 by omega),
    readFraction_fractionText]
  have hread : (if t.second + t.nanosecond / 1000000000 = 60 then
      (⟨t.year, t.month, t.day, t.hour, t.minute, 59, t.nanosecond % 1000000000 + 1000000000⟩ :
        Timestamp)
      else ⟨t.year, t.month, t.day, t.hour, t.minute, t.second + t.nanosecond / 1000000000,
        t.nanosecond % 1000000000⟩) = t := by
    obtain hlow | hhigh := Nat.lt_or_ge t.nanosecond 1000000000
    · have hquotient : t.nanosecond / 1000000000 = 0 := Nat.div_eq_of_lt hlow
      rw [hquotient, Nat.mod_eq_of_lt hlow, Nat.add_zero, if_neg (by omega)]
    · have hsixty : t.second + t.nanosecond / 1000000000 = 60 := by
        have := hleap hhigh
        omega
      have hnext : t.nanosecond % 1000000000 + 1000000000 = t.nanosecond := by omega
      rw [if_pos hsixty, hnext, ← hleap hhigh]
  rw [hread, if_pos ⟨rfl, h⟩]

theorem valid_of_parse? {s : String} {t : Timestamp} (h : parse? s = some t) : t.Valid := by
  simp only [parse?, Option.bind_eq_bind, Option.bind_eq_some_iff, Option.ite_none_right_eq_some,
    Option.some.injEq] at h
  obtain ⟨_, -, _, -, _, -, _, -, _, -, _, -, _, -, _, -, _, -, _, -, _, -, _, -, hlast⟩ := h
  obtain ⟨⟨-, hvalid⟩, rfl⟩ := hlast
  exact hvalid

/-- The timestamp has a form in documents. -/
def IsExpressible (t : Timestamp) : Prop := ∃ s, parse? s = some t

theorem isExpressible_iff {t : Timestamp} : t.IsExpressible ↔ t.Valid :=
  ⟨fun ⟨_, h⟩ => valid_of_parse? h, fun h => ⟨_, parse?_documentText h⟩⟩

end DialectSql.Timestamp
