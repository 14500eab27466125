import DialectSql.Proofs.Quoting.Unquoted

namespace DialectSql

/-- A text with its regions in single quotes: what stands before the first region, and each region
with what follows it. -/
structure QuotedText where
  head : List Char
  tail : List (List Char × List Char)
deriving DecidableEq, Repr

namespace QuotedText

/-- The texts outside of the regions. -/
def outside (q : QuotedText) : List (List Char) := q.head :: q.tail.map (·.2)

/-- What the regions say, a doubled quote being one quote. -/
def regions (q : QuotedText) : List (List Char) := q.tail.map (·.1)

def behindText (cs : List Char) (q : QuotedText) : QuotedText := ⟨cs ++ q.head, q.tail⟩

def behindRegion (region : List Char) (q : QuotedText) : QuotedText :=
  ⟨[], (region, q.head) :: q.tail⟩

/-- Reads a text, outside of regions or inside of one that has begun. A region ends with the first
quote that is not doubled. -/
def read : Option (List Char) → List Char → Option QuotedText
  | none, [] => some ⟨[], []⟩
  | none, '\'' :: cs => read (some []) cs
  | none, c :: cs => (read none cs).map (behindText [c])
  | some _, [] => none
  | some region, '\'' :: '\'' :: cs => read (some (region ++ ['\''])) cs
  | some region, '\'' :: cs => (read none cs).map (behindRegion region)
  | some region, c :: cs => read (some (region ++ [c])) cs

def ofString? (s : String) : Option QuotedText := read none s.toList

theorem read_cons {c : Char} (hc : c ≠ '\'') (cs : List Char) :
    read none (c :: cs) = (read none cs).map (behindText [c]) := by
  rw [read]
  exact hc

theorem read_region_cons (region : List Char) {c : Char} (hc : c ≠ '\'') (cs : List Char) :
    read (some region) (c :: cs) = read (some (region ++ [c])) cs := by
  rw [read]
  all_goals simp [hc]

theorem read_region_end (region : List Char) {rest : List Char} (h : rest.head? ≠ some '\'') :
    read (some region) ('\'' :: rest) = (read none rest).map (behindRegion region) := by
  rw [read]
  rintro cs rfl
  exact h rfl

theorem read_text {cs : List Char} (h : '\'' ∉ cs) (rest : List Char) :
    read none (cs ++ rest) = (read none rest).map (behindText cs) := by
  induction cs with
  | nil => exact Option.map_id'.symm
  | cons c cs ih =>
      rw [List.mem_cons, not_or] at h
      rw [List.cons_append, read_cons (Ne.symm h.1), ih h.2, Option.map_map]
      rfl

theorem read_quoteChars (region cs : List Char) {rest : List Char} (h : rest.head? ≠ some '\'') :
    read (some region) (quoteChars cs ++ '\'' :: rest) =
      (read none rest).map (behindRegion (region ++ cs)) := by
  induction cs generalizing region with
  | nil =>
      rw [List.append_nil]
      exact read_region_end region h
  | cons c cs ih =>
      have hsplit : region ++ c :: cs = region ++ [c] ++ cs := by simp
      rw [quoteChars, hsplit, ← ih]
      split
      · subst_vars
        rfl
      · exact read_region_cons region ‹_› _

theorem read_quoted (s : String) {rest : List Char} (h : rest.head? ≠ some '\'') :
    read none ((quoted s).toList ++ rest) = (read none rest).map (behindRegion s.toList) := by
  have hregion := read_quoteChars [] s.toList h
  rw [quoted, String.toList_ofList, List.append_assoc]
  exact hregion

end QuotedText

def hexDigit? (c : Char) : Option Nat :=
  if c.isDigit then some (c.toNat - 48)
  else if 65 ≤ c.toNat ∧ c.toNat ≤ 70 then some (c.toNat - 55)
  else none

/-- Reads two hexadecimal digits for each byte. -/
def readHex : List Char → Option (List UInt8)
  | [] => some []
  | [_] => none
  | high :: low :: cs => do
      let h ← hexDigit? high
      let l ← hexDigit? low
      return UInt8.ofNat (16 * h + l) :: (← readHex cs)

theorem hexDigit?_digitChar : ∀ n < 16, hexDigit? (Nat.digitChar n).toUpper = some n := by decide

theorem readHex_hexBytes (bytes : List UInt8) : readHex (hexBytes bytes).toList = some bytes := by
  rw [hexBytes, String.toList_ofList]
  induction bytes with
  | nil => rfl
  | cons b bytes ih =>
      have hhigh := hexDigit?_digitChar (b.toNat / 16) (Nat.div_lt_of_lt_mul b.toNat_lt)
      have hlow := hexDigit?_digitChar (b.toNat % 16) (Nat.mod_lt _ (by decide))
      have hbyte : UInt8.ofNat (16 * (b.toNat / 16) + b.toNat % 16) = b := by
        rw [Nat.div_add_mod, UInt8.ofNat_toNat]
      simp only [List.flatMap_cons, hexByte, List.map_cons, List.map_nil, List.cons_append,
        List.nil_append, readHex, hhigh, hlow, ih, Option.bind_eq_bind, Option.bind_some, hbyte,
        Option.pure_def]

end DialectSql
