import DialectSql.Json.Printer
import DialectSql.Json.Reader

namespace DialectSql.Json

namespace Reader

variable (rest : List Char)

theorem chars_end : chars ('"' :: rest) = some ([], rest) := rfl

theorem hex4_control : ∀ n < 32, hex4 '0' '0' (Nat.digitChar (n / 16)) (Nat.digitChar (n % 16)) =
    some n := by decide

theorem toList_controlEscape : ∀ n < 32, (controlEscape (Char.ofNat n)).toList =
    ['\\', 'u', '0', '0', Nat.digitChar (n / 16), Nat.digitChar (n % 16)] := by decide

theorem chars_control {c : Char} (h : c.toNat < 32) :
    chars ((controlEscape c).toList ++ rest) = follow (some c) (chars rest) := by
  have hlist := toList_controlEscape c.toNat h
  have hhigh : isHighSurrogate c.toNat = false := by
    simp [isHighSurrogate]
    omega
  have hlow : isLowSurrogate c.toNat = false := by
    simp [isLowSurrogate]
    omega
  rw [Char.ofNat_toNat] at hlist
  rw [hlist]
  simp only [List.cons_append, List.nil_append, chars, hex4_control c.toNat h, hhigh, hlow,
    Bool.false_eq_true, if_false, Char.ofNat_toNat]

theorem chars_plain {c : Char} (hquote : c ≠ '"') (hslash : c ≠ '\\') (h : ¬c.toNat < 32) :
    chars (c :: rest) = follow (some c) (chars rest) := by
  rw [chars, if_neg (by simp [hslash, h])]
  all_goals simp [hquote, hslash]

/-- An escaped character is read as the character. -/
theorem chars_escapeChar (c : Char) :
    chars ((escapeChar c).toList ++ rest) = follow (some c) (chars rest) := by
  rw [escapeChar]
  split
  · subst_vars
    rfl
  split
  · subst_vars
    rfl
  split
  · subst_vars
    rfl
  split
  · subst_vars
    rfl
  split
  · subst_vars
    rfl
  split
  · subst_vars
    rfl
  split
  · subst_vars
    rfl
  split
  · exact chars_control rest ‹_›
  · rw [Char.toString_eq_singleton, String.toList_singleton]
    exact chars_plain rest ‹_› ‹_› ‹_›

theorem chars_escaped (cs : List Char) :
    chars (cs.flatMap (fun c => (escapeChar c).toList) ++ '"' :: rest) =
      some (cs.map some, rest) := by
  induction cs with
  | nil => exact chars_end rest
  | cons c cs ih =>
      rw [List.flatMap_cons, List.append_assoc, chars_escapeChar, ih]
      rfl

end Reader

theorem toList_join (ss : List String) : (String.join ss).toList = ss.flatMap String.toList := by
  induction ss with
  | nil => rfl
  | cons s ss ih => rw [String.join_cons, String.toList_append, ih, List.flatMap_cons]

theorem toList_quote (s : String) : (quote s).toList =
    '"' :: (s.toList.flatMap (fun c => (escapeChar c).toList) ++ ['"']) := by
  rw [quote, String.toList_append, String.toList_append, toList_join, List.flatMap_map]
  rfl

/-- A quoted text is read as the text. -/
theorem Reader.text_quote (s : String) (rest : List Char) :
    ∃ cs, (quote s).toList ++ rest = '"' :: cs ∧ text cs = some (some s, rest) := by
  refine ⟨s.toList.flatMap (fun c => (escapeChar c).toList) ++ '"' :: rest, ?_, ?_⟩
  · rw [toList_quote]
    simp
  · have hall : (s.toList.map some).mapM id = some s.toList := by
      induction s.toList with
      | nil => rfl
      | cons c cs ih => simp [ih]
    rw [text, chars_escaped]
    simp [hall, String.ofList_toList]

end DialectSql.Json
