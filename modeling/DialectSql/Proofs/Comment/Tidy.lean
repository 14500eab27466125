import DialectSql.Ast.Operator
import DialectSql.Value

namespace DialectSql

/-- The first character is never followed by the second one, whatever stands behind the text. -/
def keepsApart (a b : Char) : List Char → Bool
  | [] => true
  | [c] => c != a
  | c :: d :: cs => !(c == a && d == b) && keepsApart a b (d :: cs)

/-- No comment begins in the text, nor with its last character and what may follow it. -/
def isTidy (cs : List Char) : Bool := keepsApart '-' '-' cs && keepsApart '/' '*' cs

section

variable {a b : Char} {cs ds : List Char}

theorem keepsApart_cons {c : Char} (hc : c ≠ a) : keepsApart a b (c :: cs) = keepsApart a b cs := by
  have hne : (c == a) = false := beq_false_of_ne hc
  cases cs <;> simp [keepsApart, hne, bne]

theorem keepsApart_append (hc : keepsApart a b cs = true) (hd : keepsApart a b ds = true) :
    keepsApart a b (cs ++ ds) = true := by
  induction cs with
  | nil => exact hd
  | cons c cs ih =>
      cases cs with
      | nil =>
          have hne : c ≠ a := by simpa [keepsApart] using hc
          rwa [List.singleton_append, keepsApart_cons hne]
      | cons d cs =>
          rw [keepsApart, Bool.and_eq_true] at hc
          rw [List.cons_append, List.cons_append, keepsApart, Bool.and_eq_true, ← List.cons_append]
          exact ⟨hc.1, ih hc.2⟩

theorem keepsApart_of_notMem (h : a ∉ cs) : keepsApart a b cs = true := by
  induction cs with
  | nil => rfl
  | cons c cs ih =>
      rw [List.mem_cons, not_or] at h
      rw [keepsApart_cons (Ne.symm h.1), ih h.2]

/-- The character in front of a text that does not begin with the other one. -/
theorem keepsApart_behind (h : keepsApart a b cs = true) (hne : cs ≠ []) (hhead : cs.head? ≠ some b) :
    keepsApart a b (a :: cs) = true := by
  cases cs with
  | nil => exact absurd rfl hne
  | cons d cs =>
      have hd : d ≠ b := fun hd => hhead (congrArg some hd)
      simpa [keepsApart, hd] using h

theorem not_infix_of_keepsApart (h : keepsApart a b cs = true) : ¬[a, b] <:+: cs := by
  rintro ⟨before, behind, rfl⟩
  induction before with
  | nil => simp [keepsApart] at h
  | cons c before ih =>
      refine ih ?_
      cases before <;>
        · simp only [List.cons_append, List.nil_append, List.append_assoc, keepsApart,
            Bool.and_eq_true] at h ⊢
          exact h.2

end

theorem isTidy_append {cs ds : List Char} (hc : isTidy cs = true) (hd : isTidy ds = true) :
    isTidy (cs ++ ds) = true := by
  rw [isTidy, Bool.and_eq_true] at hc hd ⊢
  exact ⟨keepsApart_append hc.1 hd.1, keepsApart_append hc.2 hd.2⟩

theorem isTidy_of_notMem {cs : List Char} (hminus : '-' ∉ cs) (hslash : '/' ∉ cs) :
    isTidy cs = true := by
  rw [isTidy, keepsApart_of_notMem hminus, keepsApart_of_notMem hslash]
  rfl

theorem isTidy_digits {cs : List Char} (h : ∀ c ∈ cs, c.isDigit = true ∨ c = '.') :
    isTidy cs = true :=
  isTidy_of_notMem (fun hc => absurd (h _ hc) (by decide)) fun hc => absurd (h _ hc) (by decide)

theorem isDigit_or_point {cs : List Char} {c : Char}
    (hcs : cs.all (fun c => c.isDigit || c == '.') = true) (hc : c ∈ cs) :
    c.isDigit = true ∨ c = '.' := by
  simpa using List.all_eq_true.1 hcs c hc

theorem isDigit_nat {n : Nat} {c : Char} (h : c ∈ (toString n).toList) : c.isDigit = true := by
  rw [Nat.toString_eq_ofList_toDigits, String.toList_ofList] at h
  exact Nat.isDigit_of_mem_toDigits (by decide) (by decide) h

theorem toList_nat_ne_nil (n : Nat) : (toString n).toList ≠ [] := by
  rw [Nat.toString_eq_ofList_toDigits, String.toList_ofList]
  exact Nat.toDigits_ne_nil

theorem isTidy_nat (n : Nat) : isTidy (toString n).toList = true :=
  isTidy_digits fun _ hc => .inl (isDigit_nat hc)

theorem head_digits {cs : List Char} (h : ∀ c ∈ cs, c.isDigit = true ∨ c = '.') :
    cs.head? ≠ some '-' :=
  fun hhead => absurd (h _ (List.mem_of_mem_head? hhead)) (by decide)

/-- Digits, with a sign in front of them or without one. -/
theorem isTidy_signed {cs : List Char} (negative : Bool)
    (h : ∀ c ∈ cs, c.isDigit = true ∨ c = '.') (hne : cs ≠ []) :
    isTidy ((if negative then "-" else "").toList ++ cs) = true := by
  have htidy := isTidy_digits h
  cases negative with
  | false => exact htidy
  | true =>
      rw [isTidy, Bool.and_eq_true] at htidy
      have hslash : keepsApart '/' '*' ('-' :: cs) = true := by
        rw [keepsApart_cons (by decide), htidy.2]
      rw [isTidy, Bool.and_eq_true]
      exact ⟨keepsApart_behind htidy.1 hne (head_digits h), hslash⟩

theorem head_signed {cs : List Char} (negative : Bool) (h : ∀ c ∈ cs, c.isDigit = true ∨ c = '.') :
    ((if negative then "-" else "").toList ++ cs).head? = some '-' ↔ negative = true := by
  cases negative with
  | false => simpa using head_digits h
  | true => simp

theorem head_int (n : Int) : (toString n).toList.head? = some '-' ↔ n < 0 := by
  cases n with
  | ofNat n =>
      have h := head_digits fun _ hc => .inl (isDigit_nat (n := n) hc)
      exact ⟨fun hhead => absurd hhead h, fun hneg => absurd hneg (Int.not_lt.2 (Int.natCast_nonneg n))⟩
  | negSucc n =>
      have h := (head_signed true fun _ hc => .inl (isDigit_nat (n := n + 1) hc)).2 rfl
      rw [if_pos rfl, ← String.toList_append] at h
      exact ⟨fun _ => Int.negSucc_lt_zero n, fun _ => h⟩

theorem isTidy_int (n : Int) : isTidy (toString n).toList = true := by
  cases n with
  | ofNat n => exact isTidy_nat n
  | negSucc n =>
      have h := isTidy_signed true (fun _ hc => .inl (isDigit_nat hc)) (toList_nat_ne_nil (n + 1))
      rwa [if_pos rfl, ← String.toList_append] at h

theorem isTidy_bound (b : FrameBound) : isTidy b.sql.toList = true := by
  cases b with
  | preceding n | following n =>
      rw [FrameBound.sql, String.toList_append]
      exact isTidy_append (isTidy_nat _) (by decide)
  | unboundedPreceding | currentRow | unboundedFollowing => decide

theorem isTidy_frame (f : WindowFrame) : isTidy f.sql.toList = true := by
  obtain ⟨unit, start, stop⟩ := f
  have hunit : isTidy unit.sql.toList = true := by cases unit <;> decide
  have hblank : isTidy " ".toList = true := by decide
  cases stop with
  | none =>
      simp only [WindowFrame.sql, String.toList_append]
      exact isTidy_append (isTidy_append hunit hblank) (isTidy_bound start)
  | some stop =>
      have hbetween : isTidy "between ".toList = true := by decide
      have hand : isTidy " and ".toList = true := by decide
      simp only [WindowFrame.sql, String.toList_append]
      exact isTidy_append (isTidy_append hunit hblank) (isTidy_append (isTidy_append (isTidy_append
        hbetween (isTidy_bound start)) hand) (isTidy_bound stop))

theorem toList_int_ne_nil (n : Int) : (toString n).toList ≠ [] := by
  cases n with
  | ofNat n => exact toList_nat_ne_nil n
  | negSucc n =>
      change ("-" ++ toString (n + 1)).toList ≠ []
      simp [String.toList_append]

namespace Decimal

theorem isDigit_zeros {n : Nat} {c : Char} (h : c ∈ (zeros n).toList) : c.isDigit = true := by
  rw [zeros, String.toList_ofList] at h
  rw [List.eq_of_mem_replicate h]
  rfl

theorem mem_positional {d : Decimal} {c : Char} (h : c ∈ d.positional.toList) :
    c.isDigit = true ∨ c = '.' := by
  have hdigits {c : Char} (hc : c ∈ (toString d.digits).toList) := isDigit_nat hc
  rw [positional] at h
  split at h
  · rw [String.toList_append, List.mem_append] at h
    exact .inl (h.elim hdigits isDigit_zeros)
  · split at h
    · simp only [String.toList_append, List.mem_append] at h
      rcases h with (h | h) | h
      · exact isDigit_or_point (by decide) h
      · exact .inl (isDigit_zeros h)
      · exact .inl (hdigits h)
    · simp only [String.toList_append, String.toList_ofList, List.mem_append] at h
      rcases h with (h | h) | h
      · exact .inl (hdigits (List.mem_of_mem_take h))
      · exact .inr (List.mem_singleton.1 h)
      · exact .inl (hdigits (List.mem_of_mem_drop h))

theorem toList_positional_ne_nil (d : Decimal) : d.positional.toList ≠ [] := by
  rw [positional]
  split
  · rw [String.toList_append]
    exact List.append_ne_nil_of_left_ne_nil (toList_nat_ne_nil _) _
  · split <;> simp [String.toList_append]

end Decimal

namespace Binary64

theorem not_isNaN {x : Binary64} (h : x.isFinite = true) : x.isNaN = false := by
  rw [isNaN, Bool.and_eq_false_iff]
  simp only [isFinite, decide_eq_true_eq] at h
  exact .inl (beq_false_of_ne (by omega))

/-- The text of a finite number: a sign, and digits with one point. -/
theorem statementText_finite {x : Binary64} (h : x.isFinite = true) : ∃ cs : List Char,
    x.statementText.toList = (if x.isNegative then "-" else "").toList ++ cs ∧ cs ≠ [] ∧
      ∀ c ∈ cs, c.isDigit = true ∨ c = '.' := by
  rw [statementText, not_isNaN h, if_neg Bool.false_ne_true, if_neg (by simp [h])]
  cases x.natAbs? with
  | none =>
      exact ⟨_, String.toList_append .., Decimal.toList_positional_ne_nil _,
        fun _ => Decimal.mem_positional⟩
  | some n =>
      refine ⟨(toString n).toList ++ ".0".toList, ?_, ?_, fun c hc => ?_⟩
      · simp only [String.toList_append, List.append_assoc]
      · exact List.append_ne_nil_of_left_ne_nil (toList_nat_ne_nil _) _
      · rcases List.mem_append.1 hc with hc | hc
        · exact .inl (isDigit_nat hc)
        · exact isDigit_or_point (by decide) hc

theorem statementText_infinite {x : Binary64} (h : x.isFinite = false) : x.statementText =
    if x.isNaN then "NaN" else (if x.isNegative then "-" else "") ++ "inf" := by
  rw [statementText]
  simp [h]

theorem isTidy_statementText (x : Binary64) : isTidy x.statementText.toList = true := by
  cases hfinite : x.isFinite with
  | true =>
      obtain ⟨cs, htext, hne, hdigits⟩ := statementText_finite hfinite
      rw [htext]
      exact isTidy_signed _ hdigits hne
  | false =>
      rw [statementText_infinite hfinite]
      cases x.isNaN <;> cases x.isNegative <;> rfl

theorem head_statementText (x : Binary64) :
    x.statementText.toList.head? = some '-' ↔ (x.isNegative && !x.isNaN) = true := by
  cases hfinite : x.isFinite with
  | true =>
      obtain ⟨cs, htext, -, hdigits⟩ := statementText_finite hfinite
      rw [htext, head_signed _ hdigits, not_isNaN hfinite, Bool.not_false, Bool.and_true]
  | false =>
      rw [statementText_infinite hfinite]
      cases x.isNaN <;> cases x.isNegative <;> decide

theorem toList_statementText_ne_nil (x : Binary64) : x.statementText.toList ≠ [] := by
  cases hfinite : x.isFinite with
  | true =>
      obtain ⟨cs, htext, hne, -⟩ := statementText_finite hfinite
      rw [htext]
      exact List.append_ne_nil_of_right_ne_nil _ hne
  | false =>
      rw [statementText_infinite hfinite]
      cases x.isNaN <;> cases x.isNegative <;> decide

end Binary64

end DialectSql
