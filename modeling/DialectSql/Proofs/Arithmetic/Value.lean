import DialectSql.Proofs.Arithmetic.Reading
import DialectSql.Proofs.Condition.Parts

namespace DialectSql

/-- The output has the given units and no error. -/
structure Output.Lexes (o : Output) (ls : List Lexeme) : Prop where
  failure : o.failure = none
  lexemes : Lexeme.ofPieces o.pieces = ls

namespace Output.Lexes

variable {a b : Output} {ls ms : List Lexeme}

theorem append (ha : a.Lexes ls) (hb : b.Lexes ms) : (a ++ b).Lexes (ls ++ ms) where
  failure := by rw [failure_append, ha.failure, hb.failure]; rfl
  lexemes := by rw [pieces_append ha.failure, Lexeme.ofPieces_append, ha.lexemes, hb.lexemes]

theorem word {w : String} (h : Lexeme.ofWord w = ls) : (Output.word w).Lexes ls :=
  ⟨rfl, (Lexeme.ofPieces_word w).trans h⟩

theorem name (n : String) : (Output.name n).Lexes [.unit (.name n)] := ⟨rfl, rfl⟩

theorem operator (op : BinaryOp) : (Output.word op.sql).Lexes [.mark op.sql] :=
  word (by cases op <;> decide +kernel)

theorem wrap (h : a.Lexes ls) (needed : Bool) :
    (Render.wrap needed a).Lexes (Arithmetic.enclosed needed ls) := by
  cases needed with
  | true =>
      have hopening : (Output.word "(").Lexes [.opening .paren] := word (by decide +kernel)
      have hclosing : (Output.word ")").Lexes [.closing .paren] := word (by decide +kernel)
      exact (hopening.append h).append hclosing
  | false => exact h

end Output.Lexes

/-- The value of an operation on integers; none for a division by zero and for a concatenation. -/
def BinaryOp.value? : BinaryOp → Int → Int → Option Int
  | add, x, y => some (x + y)
  | sub, x, y => some (x - y)
  | mul, x, y => some (x * y)
  | div, x, y => if y = 0 then none else some (x.tdiv y)
  | mod, x, y => if y = 0 then none else some (x.tmod y)
  | concat, _, _ => none

namespace Arithmetic

theorem lexes_operand (d : Dialect) (e : Arithmetic) :
    (Render.operand d e.expr).output.Lexes e.lexemes := by
  induction e with
  | column qualifier name =>
      simp only [expr, Render.operand]
      cases qualifier with
      | none => exact .name name
      | some q =>
          have hdot : (Output.word ".").Lexes [.mark "."] := .word (by decide +kernel)
          exact ((Output.Lexes.name q).append hdot).append (.name name)
  | binary l op r hl hr =>
      simp only [expr, Render.operand]
      have hblank : (Output.word " ").Lexes [] := .word (by decide +kernel)
      have h := ((((hl.wrap (Render.needsParens op false l.expr)).append hblank).append
        (.operator op)).append hblank).append (hr.wrap (Render.needsParens op true r.expr))
      simpa only [Operand.output, Render.binary, lexemes, List.append_nil, List.append_assoc,
        List.singleton_append] using h

variable (columns : Option String → String → Int)

def value? : Arithmetic → Option Int
  | column qualifier name => some (columns qualifier name)
  | binary l op r => do op.value? (← l.value?) (← r.value?)

/-- The text begins with a quotient or a remainder, perhaps of several factors. -/
def startsDivided : Arithmetic → Bool
  | binary l op _ => op == .div || op == .mod || op == .mul && l.startsDivided
  | column .. => false

/-- No product has a quotient or a remainder to its right that would be read as divided after it. -/
def KeepsQuotients : Arithmetic → Prop
  | column .. => True
  | binary l op r => l.KeepsQuotients ∧ r.KeepsQuotients ∧ (op = .mul → r.startsDivided = false)

variable {columns : Option String → String → Int}

theorem value?_binary (l : Arithmetic) (op : BinaryOp) (r : Arithmetic) :
    (binary l op r).value? columns =
      (l.value? columns).bind fun x => (r.value? columns).bind fun y => op.value? x y := rfl

/-- An operation may come before one of its precedence that follows it, unless that is a division. -/
theorem value?_value? {op inner : BinaryOp} (hop : op.isLeftAssociativeOnly = false)
    (hlevel : inner.precedence = op.precedence) (hinner : op = .mul → inner = .mul) (x y z : Int) :
    ((op.value? x y).bind fun v => inner.value? v z) =
      (inner.value? y z).bind fun v => op.value? x v := by
  cases op <;> cases inner <;>
    simp_all [BinaryOp.isLeftAssociativeOnly, BinaryOp.precedence, BinaryOp.value?, Int.add_assoc,
      Int.mul_assoc, Int.add_sub_assoc]

theorem value?_graft (x : Arithmetic) {op : BinaryOp} (hop : op.isLeftAssociativeOnly = false)
    {y : Arithmetic} (hy : op = .mul → y.startsDivided = false) :
    (graft x op y).value? columns = (binary x op y).value? columns := by
  induction y with
  | column => rfl
  | binary l inner r ihl =>
      by_cases hlevel : inner.precedence = op.precedence
      · have hinner : op = .mul → inner = .mul ∧ l.startsDivided = false := by
          rintro rfl
          have h := hy rfl
          cases inner <;> simp_all [startsDivided, BinaryOp.precedence]
        rw [graft_binary hlevel, value?_binary, ihl fun h => (hinner h).2]
        simp only [value?_binary]
        cases x.value? columns <;> cases l.value? columns <;> cases r.value? columns <;>
          simp [value?_value? hop hlevel fun h => (hinner h).1]
      · rw [graft_of_ne (y := .binary l inner r) hlevel]

theorem startsDivided_of_additive {e : Arithmetic} (h : e.level = 8) : e.startsDivided = false := by
  cases e with
  | column => rfl
  | binary l op r => cases op <;> simp_all [level, startsDivided, BinaryOp.precedence]

theorem startsDivided_graft {x y : Arithmetic} (hy : y.startsDivided = false) :
    (graft x .mul y).startsDivided = x.startsDivided := by
  induction y with
  | column => simp [graft, startsDivided]
  | binary l inner r ihl =>
      by_cases hlevel : inner.precedence = BinaryOp.mul.precedence
      · have hinner : inner = .mul ∧ l.startsDivided = false := by
          cases inner <;> simp_all [startsDivided, BinaryOp.precedence]
        rw [graft_binary hlevel]
        simp [startsDivided, hinner.1, ihl hinner.2]
      · rw [graft_of_ne (y := .binary l inner r) hlevel]
        simp [startsDivided]

theorem startsDivided_regrouped {e : Arithmetic} (h : e.KeepsQuotients) :
    e.regrouped.startsDivided = e.startsDivided := by
  induction e with
  | column => rfl
  | binary l op r ihl ihr =>
      obtain ⟨hl, hr, hmul⟩ := h
      have hleft : (binary l.regrouped op r.regrouped).startsDivided =
          (binary l op r).startsDivided := by
        simp only [startsDivided, ihl hl]
      rw [regrouped]
      split
      · exact hleft
      · rename_i hneeded
        rw [needsParens_right] at hneeded
        by_cases hlevel : r.regrouped.level = op.precedence
        · have hop : op = .mul ∨ op.precedence = 8 := by
            rw [level_regrouped] at hlevel
            cases op <;> simp_all [BinaryOp.precedence, BinaryOp.isLeftAssociativeOnly]
          obtain rfl | hadditive := hop
          · rw [startsDivided_graft ((ihr hr).trans (hmul rfl))]
            simp [startsDivided, ihl hl]
          · rw [startsDivided_of_additive ((level_graft ..).trans hadditive),
              startsDivided_of_additive (e := .binary l op r) hadditive]
        · rw [graft_of_ne hlevel, hleft]

/-- Where the text keeps quotients together, it has the value of the expression. -/
theorem value?_regrouped {e : Arithmetic} (h : e.KeepsQuotients) :
    e.regrouped.value? columns = e.value? columns := by
  induction e with
  | column => rfl
  | binary l op r ihl ihr =>
      obtain ⟨hl, hr, hmul⟩ := h
      have hoperands : (binary l.regrouped op r.regrouped).value? columns =
          (binary l op r).value? columns := by
        rw [value?_binary, value?_binary, ihl hl, ihr hr]
      rw [regrouped]
      split
      · exact hoperands
      · rename_i hneeded
        rw [needsParens_right] at hneeded
        by_cases hlevel : r.regrouped.level = op.precedence
        · have hop : op.isLeftAssociativeOnly = false := by
            rw [level_regrouped] at hlevel
            simpa [hlevel] using hneeded
          rw [value?_graft _ hop fun hm => (startsDivided_regrouped hr).trans (hmul hm), hoperands]
        · rw [graft_of_ne hlevel, hoperands]

end Arithmetic

/-- The text of arithmetic over columns is read as the expression with its operands regrouped. It has
the value of the expression unless a product has a quotient or a remainder to its right, which the
text then divides after the product. -/
theorem arithmetic_read (s : Session) (e : Arithmetic) :
    (s.output (.expression e.expr)).failure = none ∧
      Arithmetic.ofPieces? (s.output (.expression e.expr)).pieces = some e.regrouped ∧
      (e.KeepsQuotients → ∀ columns, e.regrouped.value? columns = e.value? columns) := by
  have h : (s.output (.expression e.expr)).Lexes e.lexemes := Arithmetic.lexes_operand s.dialect e
  refine ⟨h.failure, ?_, fun hkeeps columns => Arithmetic.value?_regrouped hkeeps⟩
  rw [Arithmetic.ofPieces?, h.lexemes, Arithmetic.read?_lexemes]

/-- `b / c * a` for seven halves and two. -/
theorem arithmetic_read_quotient :
    let e : Arithmetic :=
      .binary (.binary (.column none "b") .div (.column none "c")) .mul (.column none "a")
    let columns := fun _ name => if name = "b" then 7 else 2
    e.KeepsQuotients ∧ e.regrouped.value? columns = e.value? columns ∧ e.value? columns = some 6 := by
  intro e columns
  have hkeeps : e.KeepsQuotients := by simp [e, Arithmetic.KeepsQuotients, Arithmetic.startsDivided]
  exact ⟨hkeeps, (arithmetic_read (.start .generic .unlocked) e).2.2 hkeeps columns, by decide⟩

/-- `a * (b / c)` is written `a * b / c`: two times three halves is two, but six halves are three. -/
example :
    let e : Arithmetic :=
      .binary (.column none "a") .mul (.binary (.column none "b") .div (.column none "c"))
    let columns := fun _ name => if name = "b" then 3 else 2
    e.value? columns = some 2 ∧ e.regrouped.value? columns = some 3 := by
  decide

end DialectSql
