import DialectSql.Proofs.SetOperation.Layout

namespace DialectSql

namespace Lexeme

/-- The number that a unit stands for: a numeral, or a placeholder for an integer. -/
def integer? : Lexeme → Option Int
  | number n => some n
  | unit (.plain s) =>
    if s.toList.all Char.isDigit && !s.toList.isEmpty then some (Nat.ofDigitChars 10 s.toList 0)
    else none
  | unit (.slot (.value (.int n))) => some n.toInt
  | _ => none

/-- A number, or a unit that stands for none. -/
def read (l : Lexeme) : Int ⊕ Lexeme := l.integer?.elim (.inr l) .inl

theorem read_of_integer {l : Lexeme} {n : Int} (h : l.integer? = some n) : l.read = .inl n := by
  rw [read, h]
  rfl

theorem integer?_plain {n : Int} (h : 0 ≤ n) : integer? (.unit (.plain (toString n))) = some n := by
  obtain ⟨k, rfl⟩ := Int.eq_ofNat_of_zero_le h
  have htext : (toString (k : Int)).toList = Nat.toDigits 10 k := by
    change (toString k).toList = _
    rw [Nat.toString_eq_ofList_toDigits, String.toList_ofList]
  have hdigits : (Nat.toDigits 10 k).all Char.isDigit = true :=
    List.all_eq_true.2 fun _ hc => Nat.isDigit_of_mem_toDigits (by decide) (by decide) hc
  have hne : (Nat.toDigits 10 k).isEmpty = false := by simp [Nat.toDigits_ne_nil]
  rw [integer?, htext, hdigits, Nat.ofDigitChars_ten_toDigits, hne]
  rfl

theorem isNumber_of_integer {l : Lexeme} {n : Int} (h : l.integer? = some n) :
    l.ofQuery = true ∧ Block.isNumber ⟨.leaf l, none⟩ = true := by
  unfold integer? at h
  split at h <;> first | exact ⟨rfl, rfl⟩ | cases h

end Lexeme

/-- The rows behind the first `skipped` ones, up to a last one if there is one. Rows are counted from
one. -/
structure RowWindow where
  skipped : Int
  last : Option Int
deriving DecidableEq, Repr

namespace RowWindow

def Contains (w : RowWindow) (row : Int) : Prop := w.skipped < row ∧ ∀ l ∈ w.last, row ≤ l

/-- What limits the rows of a query in one of its forms: an offset and a fetch, a limit and an
offset, where a limit of minus one is none, or a range of rows with both its ends. -/
def ofUnits? : List (Int ⊕ Lexeme) → Option RowWindow
  | [] => some ⟨0, none⟩
  | [.inr (.word "offset"), .inl n, .inr (.word "rows")] => some ⟨n, none⟩
  | [.inr (.word "fetch"), .inr (.word "first"), .inl m, .inr (.word "rows"), .inr (.word "only")] =>
    some ⟨0, some m⟩
  | [.inr (.word "offset"), .inl n, .inr (.word "rows"), .inr (.word "fetch"), .inr (.word "first"),
      .inl m, .inr (.word "rows"), .inr (.word "only")] => some ⟨n, some (n + m)⟩
  | [.inr (.word "limit"), .inl m] => some ⟨0, some m⟩
  | [.inr (.word "limit"), .inl m, .inr (.word "offset"), .inl n] => some ⟨n, some (n + m)⟩
  | [.inr (.word "limit"), .inr (.mark "-"), .inl 1, .inr (.word "offset"), .inl n] => some ⟨n, none⟩
  | [.inr (.word "rows"), .inl low, .inr (.word "to"), .inl high] => some ⟨low - 1, some high⟩
  | _ => none

def ofText? (ls : List Lexeme) : Option RowWindow := ofUnits? (ls.map Lexeme.read)

/-- The window that an offset and a number of rows behind it ask for. -/
def asked (offset fetch : Option Int64) : RowWindow where
  skipped := offset.elim 0 Int64.toInt
  last := fetch.map fun n => offset.elim 0 Int64.toInt + n.toInt

/-- Two windows hold the same rows as far as rows can be counted. -/
def Agrees (v w : RowWindow) : Prop :=
  ∀ row, 1 ≤ row → row ≤ RowLimit.unbounded → (v.Contains row ↔ w.Contains row)

end RowWindow

/-- What is rendered is one unit that stands for the number. -/
def Output.IsInteger (o : Output) (n : Int) : Prop :=
  o.failure = none ∧ ∃ l : Lexeme, o.lexemes = [l] ∧ l.integer? = some n

/-- What is rendered to its end, with its numbers read. -/
def Output.HasUnits (o : Output) (us : List (Int ⊕ Lexeme)) : Prop :=
  o.failure = none ∧ o.lexemes.map Lexeme.read = us

namespace Output

variable {a b o : Output} {us vs : List (Int ⊕ Lexeme)}

theorem HasUnits.empty : HasUnits .empty [] := ⟨rfl, rfl⟩

theorem HasUnits.word {w : String} (h : (Lexeme.ofWord w).map Lexeme.read = us) :
    HasUnits (.word w) us := ⟨rfl, by rw [lexemes_word, h]⟩

theorem HasUnits.append (ha : a.HasUnits us) (hb : b.HasUnits vs) : (a ++ b).HasUnits (us ++ vs) :=
  ⟨failure_append_eq_none.2 ⟨ha.1, hb.1⟩, by rw [lexemes_append ha.1, List.map_append, ha.2, hb.2]⟩

theorem IsInteger.units {n : Int} (h : o.IsInteger n) : o.HasUnits [.inl n] := by
  obtain ⟨hok, l, htext, hl⟩ := h
  refine ⟨hok, ?_⟩
  rw [htext, List.map_singleton, Lexeme.read_of_integer hl]

end Output

def Expr.integer? : Expr → Option Int64
  | .literal (.int n) => some n
  | .parameter (.value (.int n)) => some n
  | _ => none

/-- A limit that is an integer, and not a negative one. -/
structure Limit.Denotes (l : Limit) (n : Int64) : Prop where
  number : l.number = some n
  output : l.output.IsInteger n.toInt
  nonneg : 0 ≤ n.toInt

namespace RowLimit

variable {offset fetch : Option Limit} {m n : Option Int64}

theorem isInteger_plain {n : Int} (h : 0 ≤ n) : (Output.ofPieces [.plain (toString n)]).IsInteger n :=
  ⟨rfl, _, rfl, Lexeme.integer?_plain h⟩

theorem denotes_limit (d : Dialect) {e : Option Expr} (h : e.map Expr.integer? = m.map some)
    (hm : ∀ k ∈ m, 0 ≤ k) : Option.Rel Limit.Denotes (Render.limit d e) m := by
  cases e with
  | none =>
      obtain rfl : m = none := by simpa using h.symm
      exact .none
  | some e =>
      obtain ⟨k, rfl, hk⟩ : ∃ k, m = some k ∧ e.integer? = some k := by
        simpa [eq_comm, and_comm] using h
      have hnonneg : 0 ≤ k.toInt := Int64.le_iff_toInt_le.1 (hm k rfl)
      refine .some ?_
      unfold Expr.integer? at hk
      split at hk
      · obtain rfl := Option.some_inj.1 hk
        exact ⟨rfl, isInteger_plain hnonneg, hnonneg⟩
      · obtain rfl := Option.some_inj.1 hk
        exact ⟨rfl, ⟨rfl, _, rfl, rfl⟩, hnonneg⟩
      · cases hk

def total (numbers : List Int64) : Int := numbers.foldr (fun n sum => n.toInt + sum) 0

theorem total_nonneg {ts : List Limit} {ns : List Int64} (h : List.Forall₂ Limit.Denotes ts ns) :
    0 ≤ total ns := by
  induction h with
  | nil => exact Int.le_refl 0
  | @cons t k ts ns ht _ ih =>
      have hnonneg := ht.nonneg
      have hsum : total (k :: ns) = k.toInt + total ns := rfl
      omega

/-- A sum is written as one number, unless it is too large for one. -/
theorem integerSum_go {ts : List Limit} {ns : List Int64} (h : List.Forall₂ Limit.Denotes ts ns)
    (start : Int) (hlow : 0 ≤ start) (hhigh : start ≤ unbounded) (isParameter : Bool) :
    let sum := start + total ns
    (sum ≤ unbounded → (integerSum.go ts start isParameter).IsInteger sum) ∧
      (unbounded < sum →
        (integerSum.go ts start isParameter).failure = some (.invalid .rowLimitOverflow)) := by
  induction h generalizing start isParameter with
  | nil =>
      have hsum : start + total [] = start := Int.add_zero start
      rw [hsum]
      refine ⟨fun _ => ?_, fun hlarge => absurd hhigh (Int.not_le.2 hlarge)⟩
      cases isParameter with
      | false => exact isInteger_plain hlow
      | true =>
          have hvalue : (Int64.ofInt start).toInt = start := by
            apply Int64.toInt_ofInt_of_le
            · omega
            · have hmax : unbounded = 2 ^ 63 - 1 := by decide
              omega
          exact ⟨rfl, _, rfl, congrArg some hvalue⟩
  | @cons t k ts ns ht hts ih =>
      have hnonneg := ht.nonneg
      have hrest := total_nonneg hts
      have hmin : Int64.minValue.toInt ≤ start + k.toInt := by
        have hmin : Int64.minValue.toInt = -2 ^ 63 := by decide
        omega
      have hsum : start + total (k :: ns) = (start + k.toInt) + total ns :=
        (Int.add_assoc ..).symm
      rw [integerSum.go, ht.number, hsum]
      dsimp only
      by_cases hfits : start + k.toInt ≤ unbounded
      · rw [if_pos ⟨hmin, hfits⟩]
        exact ih _ (by omega) hfits _
      · rw [if_neg fun h => hfits h.2]
        -- no term is negative, so that a sum that is too large stays too large
        exact ⟨fun h => absurd h (by omega), fun _ => rfl⟩

/-- Whether a bound of the range of rows is too large for a number. -/
def overflows (offset fetch : Option Int64) : Bool :=
  offset.any fun m => unbounded < m.toInt + 1 || fetch.any fun n => unbounded < m.toInt + n.toInt

theorem overflows_eq_false : overflows m n = false ↔
    (RowWindow.asked m n).skipped + 1 ≤ unbounded ∧
      (RowWindow.asked m n).last.getD unbounded ≤ unbounded := by
  have hone : (1 : Int) ≤ unbounded := by decide
  have hle (k : Int64) : k.toInt ≤ unbounded := k.toInt_le
  cases m with
  | none => cases n <;> simp [overflows, RowWindow.asked, hone, hle]
  | some m => cases n <;> simp [overflows, RowWindow.asked]

theorem low_integer (ho : Option.Rel Limit.Denotes offset m) :
    let first := m.elim 0 Int64.toInt + 1
    (first ≤ unbounded → (low offset).IsInteger first) ∧
      (unbounded < first → (low offset).failure = some (.invalid .rowLimitOverflow)) := by
  cases ho with
  | none =>
      have hone : Lexeme.ofWord "1" = [.number 1] := by decide
      refine ⟨fun _ => ⟨rfl, .number 1, ?_, rfl⟩, fun h => absurd h (by decide)⟩
      rw [low, Output.lexemes_word, hone]
  | @some o m h =>
      have hsum := integerSum_go (.cons h .nil) 1 (by decide) (by decide) false
      have htotal : 1 + total [m] = m.toInt + 1 := by simp [total, Int.add_comm]
      rw [htotal] at hsum
      exact hsum

theorem high_integer (ho : Option.Rel Limit.Denotes offset m) (hf : Option.Rel Limit.Denotes fetch n) :
    let last := (RowWindow.asked m n).last.getD unbounded
    (last ≤ unbounded → (high .timesten offset fetch).IsInteger last) ∧
      (unbounded < last →
        (high .timesten offset fetch).failure = some (.invalid .rowLimitOverflow)) := by
  cases hf with
  | none => exact ⟨fun _ => isInteger_plain (by decide), fun h => absurd h (Int.lt_irrefl _)⟩
  | @some f n hf =>
      cases ho with
      | none =>
          have hlast : (RowWindow.asked none (some n)).last.getD unbounded = n.toInt := Int.zero_add _
          rw [hlast]
          exact ⟨fun _ => hf.output, fun h => absurd n.toInt_le (Int.not_le.2 h)⟩
      | @some o m ho =>
          have hsum := integerSum_go (.cons hf (.cons ho .nil)) 0 (by decide) (by decide) false
          have htotal : 0 + total [n, m] = m.toInt + n.toInt := by simp [total, Int.add_comm]
          rw [htotal] at hsum
          exact hsum

/-- A range of rows is left out, written with both its ends as numbers, or refused because one of them
is too large. -/
theorem rowsTo_cases (ho : Option.Rel Limit.Denotes offset m)
    (hf : Option.Rel Limit.Denotes fetch n) :
    (rowsTo .timesten offset fetch .rowsOnly = .empty ∧ m = none ∧ n = none) ∨
    (overflows m n = false ∧ (rowsTo .timesten offset fetch .rowsOnly).failure = none ∧
      ∃ first last : Lexeme,
        (rowsTo .timesten offset fetch .rowsOnly).lexemes =
          [.word "rows", first, .word "to", last] ∧
        first.integer? = some ((RowWindow.asked m n).skipped + 1) ∧
        last.integer? = some ((RowWindow.asked m n).last.getD unbounded)) ∨
    (overflows m n = true ∧
      (rowsTo .timesten offset fetch .rowsOnly).failure = some (.invalid .rowLimitOverflow)) := by
  cases hgiven : offset.isNone && fetch.isNone with
  | true =>
      obtain ⟨rfl, rfl⟩ : offset = none ∧ fetch = none := by simpa using hgiven
      cases ho
      cases hf
      exact .inl ⟨rfl, rfl, rfl⟩
  | false =>
      right
      obtain ⟨hlow, hlowFails⟩ := low_integer ho
      obtain ⟨hhigh, hhighFails⟩ := high_integer ho hf
      have hkind : ¬(fetch.isSome && FetchKind.rowsOnly == FetchKind.withTies) = true := by simp
      rw [rowsTo_eq, if_neg (by simp [hgiven]), if_neg hkind]
      cases hover : overflows m n with
      | false =>
          obtain ⟨hfirst, hlast⟩ := overflows_eq_false.1 hover
          obtain ⟨hlowok, first, hlowText, hfirst⟩ := hlow hfirst
          obtain ⟨hhighok, last, hhighText, hlast⟩ := hhigh hlast
          have hrows : Lexeme.ofWord "rows " = [.word "rows"] := by decide
          have hto : Lexeme.ofWord " to " = [.word "to"] := by decide
          have hblank : Lexeme.ofWord " " = [] := by decide
          refine .inl ⟨rfl, by simp [hlowok, hhighok], first, last, ?_, hfirst, hlast⟩
          rw [Output.lexemes_append rfl, Output.lexemes_append hlowok, Output.lexemes_append rfl,
            Output.lexemes_append hhighok, hlowText, hhighText]
          simp [hrows, hto, hblank]
      | true =>
          refine .inr ⟨rfl, ?_⟩
          by_cases hfirst : (RowWindow.asked m n).skipped + 1 ≤ unbounded
          · have hlast : unbounded < (RowWindow.asked m n).last.getD unbounded := by
              by_contra hlast
              rw [overflows_eq_false.2 ⟨hfirst, Int.not_lt.1 hlast⟩] at hover
              cases hover
            simp [(hlow hfirst).1, hhighFails hlast]
          · simp [hlowFails (Int.not_le.1 hfirst)]

theorem failure_rowsTo (ho : Option.Rel Limit.Denotes offset m)
    (hf : Option.Rel Limit.Denotes fetch n) :
    (rowsTo .timesten offset fetch .rowsOnly).failure =
      if overflows m n then some (.invalid .rowLimitOverflow) else none := by
  obtain ⟨hempty, rfl, rfl⟩ | ⟨hover, hok, -⟩ | ⟨hover, hfails⟩ := rowsTo_cases ho hf
  · rw [hempty]
    rfl
  · rw [hover, hok]
    rfl
  · rw [hover, hfails]
    rfl

end RowLimit

namespace RowWindow

variable {offset fetch : Option Limit} {m n : Option Int64}

theorem agrees_refl (w : RowWindow) : w.Agrees w := fun _ _ _ => Iff.rfl

theorem agrees_range (w : RowWindow) :
    Agrees ⟨w.skipped + 1 - 1, some (w.last.getD RowLimit.unbounded)⟩ w := by
  intro row _ hrow
  cases hlast : w.last with
  | none => simp [Contains, hlast, hrow]
  | some l => simp [Contains, hlast]

open Output RowLimit

theorem ofText?_generic (ho : Option.Rel Limit.Denotes offset m)
    (hf : Option.Rel Limit.Denotes fetch n) :
    ofText? (clause .generic offset fetch .rowsOnly).lexemes = some (asked m n) := by
  have hoffset : HasUnits (.word " offset ") [.inr (.word "offset")] := .word (by decide)
  have hrows : HasUnits (.word " rows") [.inr (.word "rows")] := .word (by decide)
  have hfetch : HasUnits (.word " fetch first ") [.inr (.word "fetch"), .inr (.word "first")] :=
    .word (by decide)
  have honly : HasUnits (.word " rows only") [.inr (.word "rows"), .inr (.word "only")] :=
    .word (by decide)
  cases ho with
  | none =>
      cases hf with
      | none => rfl
      | @some f n hf =>
          have htake := ((HasUnits.empty.append hfetch).append hf.output.units).append honly
          have hread : ofText? (clause .generic none (some f) .rowsOnly).lexemes =
              some ⟨0, some n.toInt⟩ := congrArg ofUnits? (HasUnits.empty.append htake).2
          rw [hread, asked, Option.map_some, Option.elim_none, Int.zero_add]
  | some ho =>
      have hskip := (hoffset.append ho.output.units).append hrows
      cases hf with
      | none => exact congrArg ofUnits? (hskip.append .empty).2
      | some hf =>
          have htake := ((HasUnits.empty.append hfetch).append hf.output.units).append honly
          exact congrArg ofUnits? (hskip.append htake).2

theorem ofText?_sqlite (ho : Option.Rel Limit.Denotes offset m)
    (hf : Option.Rel Limit.Denotes fetch n) :
    ofText? (clause .sqlite offset fetch .rowsOnly).lexemes = some (asked m n) := by
  have hlimit : HasUnits (.word " limit ") [.inr (.word "limit")] := .word (by decide)
  have hnone : HasUnits (.word " limit -1") [.inr (.word "limit"), .inr (.mark "-"), .inl 1] :=
    .word (by decide)
  have hoffset : HasUnits (.word " offset ") [.inr (.word "offset")] := .word (by decide)
  cases hf with
  | none =>
      cases ho with
      | none => rfl
      | some ho =>
          have hskip := hoffset.append ho.output.units
          exact congrArg ofUnits? ((HasUnits.empty.append hnone).append hskip).2
  | @some f n hf =>
      have htake := HasUnits.empty.append (hlimit.append hf.output.units)
      cases ho with
      | none =>
          have hread : ofText? (clause .sqlite none (some f) .rowsOnly).lexemes =
              some ⟨0, some n.toInt⟩ := congrArg ofUnits? (htake.append .empty).2
          rw [hread, asked, Option.map_some, Option.elim_none, Int.zero_add]
      | some ho =>
          exact congrArg ofUnits? (htake.append (hoffset.append ho.output.units)).2

theorem ofText?_timesten (ho : Option.Rel Limit.Denotes offset m)
    (hf : Option.Rel Limit.Denotes fetch n)
    (hok : (rowsTo .timesten offset fetch .rowsOnly).failure = none) :
    ∃ w, ofText? (rowsTo .timesten offset fetch .rowsOnly).lexemes = some w ∧
      w.Agrees (asked m n) := by
  obtain ⟨hempty, rfl, rfl⟩ | ⟨-, -, first, last, htext, hfirst, hlast⟩ | ⟨-, hfails⟩ :=
    rowsTo_cases ho hf
  · rw [hempty]
    exact ⟨_, rfl, agrees_refl _⟩
  · refine ⟨_, ?_, agrees_range (asked m n)⟩
    rw [htext, ofText?]
    simp only [List.map_cons, List.map_nil, Lexeme.read_of_integer hfirst,
      Lexeme.read_of_integer hlast]
    rfl
  · simp [hfails] at hok

end RowWindow

end DialectSql
