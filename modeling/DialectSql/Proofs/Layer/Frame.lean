import DialectSql.Proofs.Layer.Basic
import Mathlib.Data.List.SplitBy

namespace DialectSql

namespace Lexeme

theorem ofWord_append {a b : String}
    (h : ∀ x ∈ a.toList.getLast?, ∀ y ∈ b.toList.head?, joins x y = false) :
    ofWord (a ++ b) = ofWord a ++ ofWord b := by
  simp only [ofWord, String.toList_append, List.splitBy_append h, List.filterMap_append]

theorem charKind_of_isDigit {c : Char} (h : c.isDigit = true) : charKind c = .digit := by
  have hblank : c ≠ ' ' := by rintro rfl; simp at h
  have hnine : c.val.toNat ≤ '9'.toNat := (Char.isDigit_iff_toNat.1 h).2
  have hupper : c.isUpper = false := decide_eq_false fun hc =>
    absurd (Nat.le_trans (UInt32.le_iff_toNat_le.1 hc.1) hnine) (by decide)
  have hlower : c.isLower = false := by
    cases hc : c.isLower with
    | false => rfl
    | true =>
        have hle := of_decide_eq_true (Bool.and_eq_true_iff.1 hc).1
        exact absurd (Nat.le_trans (UInt32.le_iff_toNat_le.1 hle) hnine) (by decide)
  have hletter : c.isAlpha = false := Bool.or_eq_false_iff.2 ⟨hupper, hlower⟩
  simp [charKind, hblank, hletter, h]

/-- A unit outside brackets that is no operator. -/
def ofFrame (l : Lexeme) : Bool := l.avoids operatorWords

theorem ofFrame_of_digits {w : String} (h : ∀ c ∈ w.toList, charKind c = .digit) :
    (ofWord w).all ofFrame = true := by
  rw [List.all_eq_true]
  intro l hl
  obtain ⟨run, hrun, hl⟩ := List.mem_filterMap.1 hl
  cases run with
  | nil => cases hl
  | cons c cs =>
      have hmem : c ∈ w.toList := by
        rw [← List.flatten_splitBy joins w.toList]
        exact List.mem_flatten.2 ⟨_, hrun, by simp⟩
      simp only [ofRun, List.head?_cons, Option.map_some, h c hmem, Option.some.injEq] at hl
      rw [← hl]
      rfl

/-- A text without brackets and operators that is read alone where blanks stand around it. -/
def Standing (w : String) : Prop :=
  (ofWord w).all ofFrame = true ∧ (w.toList.head?.map (joins ' ')) = some false ∧
    (w.toList.getLast?.map (joins · ' ')) = some false

instance (w : String) : Decidable (Standing w) := inferInstanceAs (Decidable (_ ∧ _ ∧ _))

theorem standing_number (n : Nat) : Standing (toString n) := by
  have hdigit {c : Char} (hc : c ∈ (toString n).toList) : charKind c = .digit := by
    rw [Nat.toString_eq_ofList_toDigits, String.toList_ofList] at hc
    exact charKind_of_isDigit (Nat.isDigit_of_mem_toDigits (by decide) (by decide) hc)
  have hne : (toString n).toList ≠ [] := by
    rw [Nat.toString_eq_ofList_toDigits, String.toList_ofList]
    exact Nat.toDigits_ne_nil
  have hblank : charKind ' ' = .blank := rfl
  refine ⟨ofFrame_of_digits fun c => hdigit, ?_, ?_⟩
  · have hhead := hdigit (List.head_mem hne)
    simp only [List.head?_eq_some_head hne, Option.map_some, joins, hhead, hblank]
    rfl
  · have hlast := hdigit (List.getLast_mem hne)
    simp only [List.getLast?_eq_some_getLast hne, Option.map_some, joins, hlast, hblank]
    rfl

/-- Texts that are read alone can be put behind each other with a blank between them. -/
theorem Standing.append {a b : String} (ha : Standing a) (hb : Standing b) :
    Standing (a ++ " " ++ b) := by
  obtain ⟨haflat, hahead, halast⟩ := ha
  obtain ⟨hbflat, hbhead, hblast⟩ := hb
  obtain ⟨x, hx, hxjoin⟩ := Option.map_eq_some_iff.1 halast
  obtain ⟨y, hy, hyjoin⟩ := Option.map_eq_some_iff.1 hbhead
  have hfirst : ofWord (a ++ " ") = ofWord a := by
    rw [ofWord_append]
    · exact List.append_nil _
    · simpa [hx] using hxjoin
  refine ⟨?_, ?_, ?_⟩
  · rw [ofWord_append, hfirst, List.all_append, haflat, hbflat]
    · rfl
    · simpa [hy] using hyjoin
  · obtain ⟨z, hz, -⟩ := Option.map_eq_some_iff.1 hahead
    simpa [hz] using hahead
  · obtain ⟨z, hz, -⟩ := Option.map_eq_some_iff.1 hblast
    have hne : b.toList ≠ [] := by rintro h; simp [h] at hz
    rw [String.toList_append, List.getLast?_append_of_ne_nil _ hne]
    exact hblast

theorem standing_bound (b : FrameBound) : Standing b.sql := by
  cases b with
  | preceding n =>
      have h := (standing_number n.toNat).append (b := "preceding") (by decide)
      rwa [String.append_assoc] at h
  | following n =>
      have h := (standing_number n.toNat).append (b := "following") (by decide)
      rwa [String.append_assoc] at h
  | unboundedPreceding | currentRow | unboundedFollowing => decide

theorem standing_frame (f : WindowFrame) : Standing f.sql := by
  obtain ⟨unit, start, stop⟩ := f
  have hunit : Standing unit.sql := by cases unit <;> decide
  cases stop with
  | none => exact hunit.append (standing_bound start)
  | some stop =>
      have hbetween : Standing "between" := by decide
      have hand : Standing "and" := by decide
      have h := hunit.append (((hbetween.append (standing_bound start)).append hand).append
        (standing_bound stop))
      simpa [WindowFrame.sql, String.append_assoc] using h

end Lexeme

end DialectSql
