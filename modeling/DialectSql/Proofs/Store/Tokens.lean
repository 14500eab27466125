import DialectSql.Dialect.Capabilities
import DialectSql.Store.Token

namespace DialectSql.Store.Token

/-- The tokens that are complete after some characters, and the mode behind them. -/
def readOn (m : Mode) : List Char → Option (List Token × Mode)
  | [] => some ([], m)
  | c :: cs => do
    let (tokens, next) ← step m c
    let (rest, last) ← readOn next cs
    some (tokens ++ rest, last)

def isWordText : List Char → Bool
  | [] => false
  | c :: cs => isNameStart c && cs.all isNameChar

def endsWord : List Char → Bool
  | [] => true
  | c :: _ => !isNameChar c && c != '\''

theorem read_append {m last : Mode} {cs : List Char} {ts : List Token}
    (h : readOn m cs = some (ts, last)) (rest : List Char) :
    read m (cs ++ rest) = (read last rest).map (ts ++ ·) := by
  induction cs generalizing m ts with
  | nil =>
      obtain ⟨rfl, rfl⟩ := Prod.mk.inj (Option.some.inj h)
      simp
  | cons c cs ih =>
      simp only [readOn, Option.bind_eq_bind, Option.bind_eq_some_iff] at h
      obtain ⟨⟨tokens, next⟩, hstep, ⟨more, last'⟩, hmore, heq⟩ := h
      obtain ⟨rfl, rfl⟩ := Prod.mk.inj (Option.some.inj heq)
      rw [List.cons_append, read, hstep]
      simp only [Option.bind_eq_bind, Option.bind_some]
      rw [ih hmore]
      cases read last' rest <;> simp

theorem read_fixed (cs : List Char) {rest : List Char} {ts : List Token}
    (h : readOn .between cs = some (ts, .between)) :
    read .between (cs ++ rest) = (read .between rest).map (ts ++ ·) := read_append h rest

/-- A token ends with a character that it cannot hold, and the next one starts there. -/
theorem read_restart {m : Mode} {t : Token} {c : Char} (hfinish : finish m = some [t])
    (hstep : step m c = restart m c) (rest : List Char) :
    read m (c :: rest) = (read .between (c :: rest)).map (t :: ·) := by
  rw [read, hstep, restart, hfinish, read, step]
  cases start c with
  | none => rfl
  | some p => cases hrest : read p.2 rest <;> simp [hrest]

theorem isBlank_of_isNameStart {c : Char} (h : isNameStart c = true) : isBlank c = false := by
  cases hblank : isBlank c with
  | false => rfl
  | true =>
      simp only [isBlank, Bool.or_eq_true, beq_iff_eq] at hblank
      rcases hblank with (((rfl | rfl) | rfl) | rfl) | rfl <;> exact absurd h (by decide)

theorem step_word {cs : List Char} {c : Char} (h : isNameChar c = true) :
    step (.word cs) c = some ([], .word (c :: cs)) := by
  rw [step, if_pos h]

theorem read_wordMode (acc : List Char) {cs rest : List Char} (hcs : cs.all isNameChar = true)
    (hend : endsWord rest = true) : read (.word acc) (cs ++ rest) =
      (read .between rest).map (.word (String.ofList (acc.reverse ++ cs)) :: ·) := by
  induction cs generalizing acc with
  | nil =>
      rw [List.nil_append, List.append_nil]
      cases rest with
      | nil => rfl
      | cons c rest =>
          simp only [endsWord, Bool.and_eq_true, Bool.not_eq_true', bne_iff_ne] at hend
          obtain ⟨hname, hquote⟩ := hend
          refine read_restart rfl ?_ rest
          rw [step, hname]
          simp [hquote]
  | cons c cs ih =>
      simp only [List.all_cons, Bool.and_eq_true] at hcs
      have hread := ih (c :: acc) hcs.2
      rw [List.reverse_cons, List.append_assoc, List.singleton_append] at hread
      rw [List.cons_append, read, step_word hcs.1]
      simp [hread]

theorem read_word {cs rest : List Char} (hcs : isWordText cs = true) (hend : endsWord rest = true) :
    read .between (cs ++ rest) = (read .between rest).map (.word (String.ofList cs) :: ·) := by
  cases cs with
  | nil => cases hcs
  | cons c cs =>
      simp only [isWordText, Bool.and_eq_true] at hcs
      have hstart : step .between c = some ([], .word [c]) := by
        rw [step, start, isBlank_of_isNameStart hcs.1, hcs.1]
        rfl
      have hread := read_wordMode [c] hcs.2 hend
      rw [List.reverse_singleton, List.singleton_append] at hread
      rw [List.cons_append, read, hstart]
      simp [hread]

theorem read_positionMode (acc : List Char) {cs rest : List Char} (hcs : ∀ c ∈ cs, c.isDigit = true)
    (hsome : acc ≠ [] ∨ cs ≠ []) (hend : endsWord rest = true) : read (.position acc) (cs ++ rest) =
      (read .between rest).map (.placeholder (some (digitsValue (acc.reverse ++ cs))) :: ·) := by
  induction cs generalizing acc with
  | nil =>
      have hacc : acc ≠ [] := hsome.resolve_right (not_not_intro rfl)
      have hfinish : finish (.position acc) =
          some [.placeholder (some (digitsValue acc.reverse))] := by
        rw [finish, if_neg (by simpa using hacc)]
      rw [List.nil_append, List.append_nil]
      cases rest with
      | nil =>
          rw [read, hfinish]
          rfl
      | cons c rest =>
          simp only [endsWord, Bool.and_eq_true, Bool.not_eq_true'] at hend
          have hdigit : c.isDigit = false := by
            have hname := hend.1
            simp only [isNameChar, Bool.or_eq_false_iff] at hname
            exact hname.1.2
          refine read_restart hfinish ?_ rest
          rw [step, hdigit, hend.1]
          rfl
  | cons c cs ih =>
      rw [List.forall_mem_cons] at hcs
      have hread := ih (c :: acc) hcs.2 (.inl (by simp))
      rw [List.reverse_cons, List.append_assoc, List.singleton_append] at hread
      rw [List.cons_append, read, step, if_pos hcs.1]
      simp [hread]

theorem read_position {n : Nat} {rest : List Char} (hend : endsWord rest = true) :
    read .between ('$' :: (n.repr.toList ++ rest)) =
      (read .between rest).map (.placeholder (some n) :: ·) := by
  have hdigits : ∀ c ∈ n.repr.toList, c.isDigit = true := by
    rw [Nat.toList_repr]
    exact fun c hc => Nat.isDigit_of_mem_toDigits (by decide) (by decide) hc
  have hne : n.repr.toList ≠ [] := by
    rw [Nat.toList_repr]
    exact Nat.toDigits_ne_nil
  have hvalue : digitsValue n.repr.toList = n := by
    rw [Nat.toList_repr]
    exact Nat.ofDigitChars_toDigits (by decide) (by decide)
  have hread := read_positionMode [] hdigits (.inr hne) hend
  rw [List.reverse_nil, List.nil_append, hvalue] at hread
  have hstart : step .between '$' = some ([], .position []) := rfl
  rw [read, hstart]
  simp [hread, -Nat.toList_repr]

theorem read_placeholder (rest : List Char) :
    read .between ('?' :: rest) = (read .between rest).map (.placeholder none :: ·) :=
  read_fixed ['?'] rfl

theorem read_colon (rest : List Char) : read .between (':' :: rest) = none := rfl

def isPlain : Token → Bool
  | .placeholder _ => false
  | _ => true

theorem numberPlaceholders_append {ts : List Token} (h : ts.all isPlain = true) (next : Nat)
    (rest : List Token) :
    numberPlaceholders next (ts ++ rest) = ts ++ numberPlaceholders next rest := by
  induction ts with
  | nil => rfl
  | cons t ts ih =>
      simp only [List.all_cons, Bool.and_eq_true] at h
      cases t with
      | placeholder p => exact absurd h.1 Bool.false_ne_true
      | _ => simp [numberPlaceholders, ih h.2]

theorem numberPlaceholders_numberPlaceholders (next other : Nat) (ts : List Token) :
    numberPlaceholders other (numberPlaceholders next ts) = numberPlaceholders next ts := by
  induction ts generalizing next with
  | nil => rfl
  | cons t ts ih =>
      cases t with
      | placeholder p => cases p <;> simp [numberPlaceholders, ih]
      | _ => simp [numberPlaceholders, ih]

/-- The tokens of a text behind `slots` placeholders, where open placeholders are written in a style.
Only some styles are known to the database. -/
def written (style : PlaceholderStyle) (slots : Nat) (ts : List Token) : Option (List Token) :=
  match style with
  | .question => some ts
  | .dollar => some (numberPlaceholders (slots + 1) ts)
  | .colon => if ts.all isPlain then some ts else none

theorem written_append (style : PlaceholderStyle) (slots : Nat) {us : List Token}
    (h : us.all isPlain = true) (ts : List Token) :
    (written style slots ts).map (us ++ ·) = written style slots (us ++ ts) := by
  cases style with
  | question => rfl
  | dollar => rw [written, written, numberPlaceholders_append h, Option.map_some]
  | colon =>
      rw [written, written, List.all_append, h, Bool.true_and]
      split <;> rfl

theorem written_numbered (style : PlaceholderStyle) (ts : List Token) :
    (written style 0 ts).map (numberPlaceholders 1) = some (numberPlaceholders 1 ts) ∨
      style = .colon ∧ written style 0 ts = none := by
  cases style with
  | question => exact .inl rfl
  | dollar => exact .inl (congrArg some (numberPlaceholders_numberPlaceholders 1 1 ts))
  | colon =>
      rw [written]
      split
      · exact .inl rfl
      · exact .inr ⟨rfl, rfl⟩

theorem numberPlaceholders_intercalate {α : Type} (separator : List Token) (f : α → List Token)
    (hs : separator.all isPlain = true) (hf : ∀ a, (f a).all isPlain = true) (as : List α)
    (next : Nat) (rest : List Token) :
    numberPlaceholders next
        (separator.intercalate (as.map fun a => f a ++ [.placeholder none]) ++ rest) =
      separator.intercalate ((as.zipIdx next).map fun p => f p.1 ++ [.placeholder (some p.2)]) ++
        numberPlaceholders (next + as.length) rest := by
  induction as generalizing next with
  | nil => rfl
  | cons a as ih =>
      cases as with
      | nil =>
          simp only [List.map_cons, List.map_nil, List.intercalate_singleton, List.zipIdx_cons,
            List.zipIdx_nil, List.append_assoc]
          rw [numberPlaceholders_append (hf a)]
          rfl
      | cons b bs =>
          have hrest := ih (next + 1)
          simp only [List.map_cons, List.zipIdx_cons] at hrest
          simp only [List.map_cons, List.zipIdx_cons, List.intercalate_cons_cons, List.append_assoc]
          rw [numberPlaceholders_append (hf a), List.singleton_append, numberPlaceholders,
            numberPlaceholders_append hs, hrest]
          simp [Nat.add_assoc, Nat.add_comm 1]

end DialectSql.Store.Token
