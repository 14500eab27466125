import DialectSql.Proofs.Document.Numeral
import DialectSql.Proofs.Document.Text

namespace DialectSql.Json

def Blank (cs : List Char) : Prop := ∀ c ∈ cs, Reader.isBlank c = true

mutual

/-- The texts of a document. Blanks may stand around the items of a list and the parts of an
object. -/
inductive Spells : Json → List Char → Prop
  | null : Spells .null ['n', 'u', 'l', 'l']
  | true : Spells (.bool true) ['t', 'r', 'u', 'e']
  | false : Spells (.bool false) ['f', 'a', 'l', 's', 'e']
  | int {n : Int} (h : Fits n) : Spells (.int n) (toString n).toList
  | string (s : String) : Spells (.string s) (quote s).toList
  | array {js : List Json} {cs : List Char} (h : SpellsItems js cs) :
    Spells (.array js) ('[' :: cs ++ [']'])
  | object {ms : List (String × Json)} {cs : List Char} (h : SpellsMembers ms cs) :
    Spells (.object ms) ('\x7b' :: cs ++ ['\x7d'])

inductive SpellsItems : List Json → List Char → Prop
  | nil {b : List Char} (hb : Blank b) : SpellsItems [] b
  | single {j : Json} {b cs e : List Char} (hb : Blank b) (h : Spells j cs) (he : Blank e) :
    SpellsItems [j] (b ++ cs ++ e)
  | cons {j k : Json} {js : List Json} {b cs e ds : List Char} (hb : Blank b) (h : Spells j cs)
    (he : Blank e) (hs : SpellsItems (k :: js) ds) :
    SpellsItems (j :: k :: js) (b ++ cs ++ e ++ ',' :: ds)

inductive SpellsMembers : List (String × Json) → List Char → Prop
  | nil {b : List Char} (hb : Blank b) : SpellsMembers [] b
  | single {s : String} {j : Json} {b e f cs g : List Char} (hb : Blank b) (he : Blank e)
    (hf : Blank f) (h : Spells j cs) (hg : Blank g) :
    SpellsMembers [(s, j)] (b ++ (quote s).toList ++ e ++ ':' :: (f ++ cs ++ g))
  | cons {s : String} {j : Json} {m : String × Json} {ms : List (String × Json)}
    {b e f cs g ds : List Char} (hb : Blank b) (he : Blank e) (hf : Blank f) (h : Spells j cs)
    (hg : Blank g) (hs : SpellsMembers (m :: ms) ds) :
    SpellsMembers ((s, j) :: m :: ms)
      (b ++ (quote s).toList ++ e ++ ':' :: (f ++ cs ++ g ++ ',' :: ds))

end

/-- The character is neither blank nor the end of a list or an object. -/
def Begins (c : Char) : Prop := Reader.isBlank c = false ∧ c ≠ ']' ∧ c ≠ '\x7d'

instance (c : Char) : Decidable (Begins c) := inferInstanceAs (Decidable (_ ∧ _))

theorem begins_of_isDigit {c : Char} (h : c.isDigit = true) : Begins c := by
  refine ⟨?_, ?_, ?_⟩
  · simp only [Reader.isBlank, Bool.or_eq_false_iff, beq_eq_false_iff_ne]
    refine ⟨⟨⟨?_, ?_⟩, ?_⟩, ?_⟩ <;> rintro rfl <;> exact absurd h (by decide)
  all_goals rintro rfl; exact absurd h (by decide)

/-- A number begins with a digit or a minus. -/
theorem toList_int (n : Int) :
    ∃ c cs, (toString n).toList = c :: cs ∧ (c.isDigit = true ∨ c = '-') := by
  cases n with
  | ofNat n =>
      obtain ⟨c, cs, hcs⟩ := List.exists_cons_of_ne_nil (Nat.toDigits_ne_nil (b := 10) (n := n))
      refine ⟨c, cs, ?_, .inl (Nat.isDigit_of_mem_toDigits (b := 10) (n := n) (by decide)
        (by decide) (hcs ▸ List.mem_cons_self))⟩
      rw [← hcs, show toString (Int.ofNat n) = toString n from rfl,
        Nat.toString_eq_ofList_toDigits, String.toList_ofList]
  | negSucc n =>
      refine ⟨'-', (toString (n + 1)).toList, ?_, .inr rfl⟩
      rw [show toString (Int.negSucc n) = "-" ++ toString (n + 1) from rfl, String.toList_append]
      rfl

theorem Spells.begins {j : Json} {cs : List Char} (h : Spells j cs) :
    ∃ c ds, cs = c :: ds ∧ Begins c := by
  cases h with
  | null | true | false => exact ⟨_, _, rfl, by decide⟩
  | int h =>
      obtain ⟨c, cs, hcs, hc⟩ := toList_int _
      refine ⟨c, cs, hcs, ?_⟩
      obtain hdigit | rfl := hc
      · exact begins_of_isDigit hdigit
      · decide
  | string s => exact ⟨_, _, toList_quote s, by decide⟩
  | array | object => exact ⟨_, _, rfl, by decide⟩

namespace Reader

theorem skipBlanks_append {b : List Char} (hb : Blank b) (cs : List Char) :
    skipBlanks (b ++ cs) = skipBlanks cs := by
  rw [skipBlanks, skipBlanks, List.dropWhile_append_of_pos hb]

theorem skipBlanks_cons {c : Char} (hc : isBlank c = false) (cs : List Char) :
    skipBlanks (c :: cs) = c :: cs := List.dropWhile_cons_of_neg (by simp [hc])

variable (round : Numeral → Option Binary64)

theorem value_of_skipBlanks {cs ds : List Char} (h : skipBlanks cs = skipBlanks ds) (fuel : Nat) :
    value round fuel cs = value round fuel ds := by
  cases fuel with
  | zero => rfl
  | succ fuel =>
      rw [value.eq_def, value.eq_def]
      dsimp only
      rw [h]

theorem value_number {c : Char} (h : c.isDigit = true ∨ c = '-') (fuel : Nat) (cs : List Char) :
    value round (fuel + 1) (c :: cs) =
      (numeral (c :: cs)).map fun (n, rest) => (n.value round, rest) := by
  have hbegins : Begins c := by
    obtain hdigit | rfl := h
    · exact begins_of_isDigit hdigit
    · decide
  rw [value.eq_def]
  dsimp only
  rw [skipBlanks_cons hbegins.1]
  split
  all_goals first
    | rfl
    | exact absurd h (by simp_all)

theorem items_of_skipBlanks {cs ds : List Char} (h : skipBlanks cs = skipBlanks ds) (fuel : Nat) :
    items round fuel cs = items round fuel ds := by
  cases fuel with
  | zero => rfl
  | succ fuel => rw [items, items, value_of_skipBlanks round h]

theorem members_of_skipBlanks {cs ds : List Char} (h : skipBlanks cs = skipBlanks ds) (fuel : Nat) :
    members round fuel cs = members round fuel ds := by
  cases fuel with
  | zero => rfl
  | succ fuel =>
      rw [members.eq_def, members.eq_def]
      dsimp only
      rw [h]

theorem value_array {c : Char} {cs ds : List Char} (h : skipBlanks cs = c :: ds) (hc : Begins c)
    (fuel : Nat) : value round (fuel + 1) ('[' :: cs) =
      (items round fuel cs).map fun (js, rest) => (.array js, rest) := by
  have hskip : skipBlanks (c :: ds) = skipBlanks cs := by rw [h, skipBlanks_cons hc.1]
  have hopen : skipBlanks ('[' :: cs) = '[' :: cs := rfl
  simp only [value, hopen, h]
  split
  · exact absurd (List.cons.inj ‹_›).1 hc.2.1
  · rw [items_of_skipBlanks round hskip]
    cases items round fuel cs <;> rfl

theorem value_object {c : Char} {cs ds : List Char} (h : skipBlanks cs = c :: ds) (hc : Begins c)
    (fuel : Nat) : value round (fuel + 1) ('\x7b' :: cs) =
      (members round fuel cs).map fun (ms, rest) => (objectOf ms, rest) := by
  have hskip : skipBlanks (c :: ds) = skipBlanks cs := by rw [h, skipBlanks_cons hc.1]
  have hopen : skipBlanks ('\x7b' :: cs) = '\x7b' :: cs := rfl
  simp only [value, hopen, h]
  split
  · exact absurd (List.cons.inj ‹_›).1 hc.2.2
  · rw [members_of_skipBlanks round hskip]
    cases members round fuel cs <;> rfl

end Reader

theorem endsNumber_blank {e : List Char} (he : Blank e) : EndsNumber e := by
  intro d hd
  have hblank := he d (List.mem_of_mem_head? hd)
  simp only [Reader.isBlank, Bool.or_eq_true, beq_iff_eq] at hblank
  obtain ((rfl | rfl) | rfl) | rfl := hblank <;> decide

theorem endsNumber_of_blank {e cs : List Char} (he : Blank e) (hcs : EndsNumber cs) :
    EndsNumber (e ++ cs) := by
  cases e with
  | nil => exact hcs
  | cons d e => exact fun c hc => endsNumber_blank he c hc

theorem endsNumber_mark {c : Char} (hc : c = ',' ∨ c = ']' ∨ c = '\x7d') (cs : List Char) :
    EndsNumber (c :: cs) := by
  rintro _ ⟨⟩
  obtain rfl | rfl | rfl := hc <;> decide

theorem skipBlanks_quote {b : List Char} (hb : Blank b) (s : String) (rest : List Char) :
    Reader.skipBlanks (b ++ ((quote s).toList ++ rest)) = (quote s).toList ++ rest := by
  rw [Reader.skipBlanks_append hb, toList_quote]
  rfl

theorem SpellsItems.begins {js : List Json} {cs : List Char} (h : SpellsItems js cs)
    (hne : js ≠ []) (rest : List Char) :
    ∃ c ds, Reader.skipBlanks (cs ++ rest) = c :: ds ∧ Begins c := by
  cases h with
  | nil => exact absurd rfl hne
  | single hb h | cons hb h =>
      obtain ⟨c, ds, rfl, hc⟩ := h.begins
      simp only [List.append_assoc, Reader.skipBlanks_append hb, List.cons_append]
      exact ⟨c, _, Reader.skipBlanks_cons hc.1 _, hc⟩

theorem SpellsMembers.begins {ms : List (String × Json)} {cs : List Char} (h : SpellsMembers ms cs)
    (hne : ms ≠ []) (rest : List Char) :
    ∃ ds, Reader.skipBlanks (cs ++ rest) = '"' :: ds := by
  cases h with
  | nil => exact absurd rfl hne
  | single hb | cons hb =>
      simp only [List.append_assoc]
      rw [skipBlanks_quote hb, toList_quote]
      exact ⟨_, rfl⟩

theorem objectOf_named (ms : List (String × Json)) :
    Reader.objectOf (ms.map fun m => (some m.1, m.2)) = .object ms := by
  have hall {f : Option String × Json → Option (String × Json)}
      (hf : ∀ s j, f (some s, j) = some (s, j)) :
      (ms.map fun m => (some m.1, m.2)).mapM f = some ms := by
    induction ms with
    | nil => rfl
    | cons m ms ih => simp [ih, hf]
  rw [Reader.objectOf, hall fun _ _ => rfl]

namespace Reader

variable (round : Numeral → Option Binary64)

theorem value_quote (s : String) (fuel : Nat) (rest : List Char) :
    value round (fuel + 1) ((quote s).toList ++ rest) = some (.string s, rest) := by
  obtain ⟨ds, hds, htext⟩ := text_quote s rest
  have hskip : skipBlanks ('"' :: ds) = '"' :: ds := rfl
  simp [hds, value, hskip, htext]

theorem value_array_nil {b : List Char} (hb : Blank b) (fuel : Nat) (rest : List Char) :
    value round (fuel + 1) ('[' :: (b ++ ']' :: rest)) = some (.array [], rest) := by
  have hopen (cs : List Char) : skipBlanks ('[' :: cs) = '[' :: cs := rfl
  have hclose : skipBlanks (b ++ ']' :: rest) = ']' :: rest := skipBlanks_append hb _
  simp only [value, hopen, hclose]

theorem value_object_nil {b : List Char} (hb : Blank b) (fuel : Nat) (rest : List Char) :
    value round (fuel + 1) ('\x7b' :: (b ++ '\x7d' :: rest)) = some (.object [], rest) := by
  have hopen (cs : List Char) : skipBlanks ('\x7b' :: cs) = '\x7b' :: cs := rfl
  have hclose : skipBlanks (b ++ '\x7d' :: rest) = '\x7d' :: rest := skipBlanks_append hb _
  simp only [value, hopen, hclose]

section

variable {fuel : Nat} {cs rest ds : List Char} {j : Json}

theorem items_next (h : value round fuel cs = some (j, rest))
    (hrest : skipBlanks rest = ',' :: ds) :
    items round (fuel + 1) cs = (items round fuel ds).map fun r => (j :: r.1, r.2) := by
  simp only [items, h, Option.bind_eq_bind, Option.bind_some, hrest]
  cases items round fuel ds <;> rfl

theorem items_last (h : value round fuel cs = some (j, rest))
    (hrest : skipBlanks rest = ']' :: ds) :
    items round (fuel + 1) cs = some ([j], ds) := by
  simp only [items, h, Option.bind_eq_bind, Option.bind_some, hrest]

theorem members_next {s : String} (h : value round fuel cs = some (j, rest))
    (hrest : skipBlanks rest = ',' :: ds) {e : List Char} (he : Blank e) :
    members round (fuel + 1) ((quote s).toList ++ (e ++ ':' :: cs)) =
      (members round fuel ds).map fun r => ((some s, j) :: r.1, r.2) := by
  obtain ⟨qs, hqs, htext⟩ := text_quote s (e ++ ':' :: cs)
  have hquote : skipBlanks ('"' :: qs) = '"' :: qs := rfl
  have hcolon : skipBlanks (e ++ ':' :: cs) = ':' :: cs := skipBlanks_append he _
  simp only [hqs, members, hquote, htext, h, Option.bind_eq_bind, Option.bind_some, hcolon, hrest]
  cases members round fuel ds <;> rfl

theorem members_last {s : String} (h : value round fuel cs = some (j, rest))
    (hrest : skipBlanks rest = '\x7d' :: ds) {e : List Char} (he : Blank e) :
    members round (fuel + 1) ((quote s).toList ++ (e ++ ':' :: cs)) =
      some ([(some s, j)], ds) := by
  obtain ⟨qs, hqs, htext⟩ := text_quote s (e ++ ':' :: cs)
  have hquote : skipBlanks ('"' :: qs) = '"' :: qs := rfl
  have hcolon : skipBlanks (e ++ ':' :: cs) = ':' :: cs := skipBlanks_append he _
  simp only [hqs, members, hquote, htext, h, Option.bind_eq_bind, Option.bind_some, hcolon, hrest]

end

mutual

/-- A text of a document is read as the document, up to the end of the text. -/
theorem value_spells {j : Json} {cs : List Char} (h : Spells j cs) (fuel : Nat) (rest : List Char)
    (hfuel : 2 * cs.length ≤ fuel) (hrest : EndsNumber rest) :
    value round fuel (cs ++ rest) = some (j, rest) := by
  obtain ⟨fuel, rfl⟩ : ∃ n, fuel = n + 1 := by
    obtain ⟨c, ds, rfl, -⟩ := h.begins
    exact Nat.exists_eq_succ_of_ne_zero (by simp at hfuel; omega)
  cases h with
  | null | true | false => rfl
  | int h =>
      obtain ⟨c, ds, hds, hc⟩ := toList_int _
      obtain ⟨m, hm, hint⟩ := numeral_int h hrest
      rw [hds, List.cons_append] at hm ⊢
      rw [value_number round hc, hm]
      simp [Numeral.value, hint]
  | string s => exact value_quote round s fuel rest
  | @array js cs h =>
      simp only [List.cons_append, List.append_assoc, List.length_append, List.length_cons]
        at hfuel ⊢
      by_cases hne : js = []
      · subst hne
        obtain ⟨hb⟩ := h
        exact value_array_nil round hb fuel rest
      · obtain ⟨c, ds, hskip, hc⟩ := h.begins hne (']' :: rest)
        rw [List.nil_append, value_array round hskip hc, items_spells h hne fuel rest (by omega)]
        rfl
  | @object ms cs h =>
      simp only [List.cons_append, List.append_assoc, List.length_append, List.length_cons]
        at hfuel ⊢
      by_cases hne : ms = []
      · subst hne
        obtain ⟨hb⟩ := h
        exact value_object_nil round hb fuel rest
      · obtain ⟨ds, hskip⟩ := h.begins hne ('\x7d' :: rest)
        rw [List.nil_append, value_object round hskip (by decide),
          members_spells h hne fuel rest (by omega)]
        exact congrArg (fun j => some (j, rest)) (objectOf_named ms)

theorem items_spells {js : List Json} {cs : List Char} (h : SpellsItems js cs) (hne : js ≠ [])
    (fuel : Nat) (rest : List Char) (hfuel : 2 * cs.length + 1 ≤ fuel) :
    items round fuel (cs ++ ']' :: rest) = some (js, rest) := by
  obtain ⟨fuel, rfl⟩ : ∃ n, fuel = n + 1 := Nat.exists_eq_succ_of_ne_zero (by omega)
  cases h with
  | nil => exact absurd rfl hne
  | @single j b cs e hb h he =>
      simp only [List.append_assoc, List.length_append] at hfuel ⊢
      rw [items_of_skipBlanks round (skipBlanks_append hb _)]
      exact items_last round (value_spells h fuel _ (by omega)
        (endsNumber_of_blank he (endsNumber_mark (by simp) _))) (skipBlanks_append he _)
  | @cons j k js b cs e ds hb h he hs =>
      simp only [List.append_assoc, List.cons_append, List.length_append, List.length_cons]
        at hfuel ⊢
      have hvalue := value_spells h fuel (e ++ ',' :: (ds ++ ']' :: rest)) (by omega)
        (endsNumber_of_blank he (endsNumber_mark (by simp) _))
      rw [items_of_skipBlanks round (skipBlanks_append hb _),
        items_next round hvalue (skipBlanks_append he _),
        items_spells hs (List.cons_ne_nil _ _) fuel rest (by omega)]
      rfl

theorem members_spells {ms : List (String × Json)} {cs : List Char} (h : SpellsMembers ms cs)
    (hne : ms ≠ []) (fuel : Nat) (rest : List Char) (hfuel : 2 * cs.length + 1 ≤ fuel) :
    members round fuel (cs ++ '\x7d' :: rest) =
      some (ms.map fun m => (some m.1, m.2), rest) := by
  obtain ⟨fuel, rfl⟩ : ∃ n, fuel = n + 1 := Nat.exists_eq_succ_of_ne_zero (by omega)
  cases h with
  | nil => exact absurd rfl hne
  | @single s j b e f cs g hb he hf h hg =>
      simp only [List.append_assoc, List.cons_append, List.length_append, List.length_cons]
        at hfuel ⊢
      have hvalue := value_spells h fuel (g ++ '\x7d' :: rest) (by omega)
        (endsNumber_of_blank hg (endsNumber_mark (by simp) _))
      rw [← value_of_skipBlanks round (skipBlanks_append hf _)] at hvalue
      rw [members_of_skipBlanks round (skipBlanks_append hb _)]
      exact members_last round hvalue (skipBlanks_append hg _) he
  | @cons s j m ms b e f cs g ds hb he hf h hg hs =>
      simp only [List.append_assoc, List.cons_append, List.length_append, List.length_cons]
        at hfuel ⊢
      have hvalue := value_spells h fuel (g ++ ',' :: (ds ++ '\x7d' :: rest)) (by omega)
        (endsNumber_of_blank hg (endsNumber_mark (by simp) _))
      rw [← value_of_skipBlanks round (skipBlanks_append hf _)] at hvalue
      rw [members_of_skipBlanks round (skipBlanks_append hb _),
        members_next round hvalue (skipBlanks_append hg _) he,
        members_spells hs (List.cons_ne_nil _ _) fuel rest (by omega)]
      rfl

end

end Reader

/-- Whatever is read from a text of a document is the document: blanks may follow it, and no
rounding takes part. -/
theorem parseWith?_spells (round : Reader.Numeral → Option Binary64) {j : Json} {s : String}
    {cs b : List Char} (hs : s.toList = cs ++ b) (h : Spells j cs) (hb : Blank b) :
    parseWith? round s = some j := by
  have hrest : Reader.skipBlanks b = [] := List.dropWhile_eq_nil_iff.mpr hb
  have hvalue := Reader.value_spells round h (2 * s.toList.length + 2) b
    (by rw [hs, List.length_append]; omega) (endsNumber_blank hb)
  rw [← hs] at hvalue
  simp [parseWith?, hvalue, hrest]

end DialectSql.Json
