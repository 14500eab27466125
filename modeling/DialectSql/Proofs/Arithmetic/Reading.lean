import DialectSql.Proofs.Condition.Reading
import DialectSql.Proofs.Output
import DialectSql.Render.Session

namespace DialectSql

namespace BinaryOp

def ofSql? (text : String) : Option BinaryOp := all.find? fun op => op.sql == text

@[simp] theorem ofSql?_sql (op : BinaryOp) : ofSql? op.sql = some op := by cases op <;> decide

end BinaryOp

/-- An expression of operators over columns. -/
inductive Arithmetic
  | column (qualifier : Option String) (name : String)
  | binary (left : Arithmetic) (op : BinaryOp) (right : Arithmetic)
deriving DecidableEq, Repr

namespace Arithmetic

def expr : Arithmetic → Expr
  | column qualifier name => .column qualifier name
  | binary left op right => .binary left.expr op right.expr

/-- How tightly the outermost operator binds. A column stands as it is beside every operator. -/
def level : Arithmetic → Nat
  | column .. => 10
  | binary _ op _ => op.precedence

/-- What waits for an operand to its right: an operator with its left operand, or a parenthesis. -/
inductive Pending
  | operator (left : Arithmetic) (op : BinaryOp)
  | parenthesis

/-- Applies those of the waiting operators, the innermost first, that bind at least as tightly as an
operator of the given precedence. -/
def applied (precedence : Nat) (x : Arithmetic) : List Pending → Arithmetic × List Pending
  | .operator l op :: ps =>
    if precedence ≤ op.precedence then applied precedence (.binary l op x) ps
    else (x, .operator l op :: ps)
  | ps => (x, ps)

mutual

/-- Reads an operand and what stands behind it. Operators of equal precedence apply from left to
right. -/
def read? : List Lexeme → List Pending → Option Arithmetic
  | .opening .paren :: ls, ps => read? ls (.parenthesis :: ps)
  | .unit (.name q) :: .mark "." :: .unit (.name n) :: ls, ps => readOn? (.column (some q) n) ls ps
  | .unit (.name n) :: ls, ps => readOn? (.column none n) ls ps
  | _, _ => none

/-- Reads on behind an operand. -/
def readOn? (x : Arithmetic) : List Lexeme → List Pending → Option Arithmetic
  | .mark m :: ls, ps => do
    let op ← BinaryOp.ofSql? m
    let (left, qs) := applied op.precedence x ps
    read? ls (.operator left op :: qs)
  | .closing .paren :: ls, ps =>
    match applied 0 x ps with
    | (y, .parenthesis :: qs) => readOn? y ls qs
    | _ => none
  | [], ps =>
    match applied 0 x ps with
    | (y, []) => some y
    | _ => none
  | _, _ => none

end

/-- The expression that a rendered text is read as. -/
def ofPieces? (ps : List Piece) : Option Arithmetic := read? (Lexeme.ofPieces ps) []

/-- `x op y`, where an operand on the right that binds no tighter than `op` is not enclosed: `op`
takes the first operand of `y` only. -/
def graft (x : Arithmetic) (op : BinaryOp) : Arithmetic → Arithmetic
  | binary l inner r =>
    if inner.precedence = op.precedence then .binary (graft x op l) inner r
    else .binary x op (.binary l inner r)
  | y => .binary x op y

/-- The expression with the operands that its text shows. -/
def regrouped : Arithmetic → Arithmetic
  | column qualifier name => .column qualifier name
  | binary l op r =>
    if Render.needsParens op true r.expr then .binary l.regrouped op r.regrouped
    else graft l.regrouped op r.regrouped

theorem graft_of_ne {x y : Arithmetic} {op : BinaryOp} (h : y.level ≠ op.precedence) :
    graft x op y = .binary x op y := by
  cases y with
  | column => rfl
  | binary => simp only [graft, level] at h ⊢; rw [if_neg h]

theorem graft_binary {x l r : Arithmetic} {op inner : BinaryOp}
    (h : inner.precedence = op.precedence) :
    graft x op (.binary l inner r) = .binary (graft x op l) inner r := by
  rw [graft, if_pos h]

@[simp] theorem level_graft (x : Arithmetic) (op : BinaryOp) (y : Arithmetic) :
    (graft x op y).level = op.precedence := by
  cases y with
  | column => rfl
  | binary l inner r =>
      simp only [graft]
      split
      · assumption
      · rfl

/-- Operators of one precedence are grafted one after the other. -/
theorem graft_graft {a : Arithmetic} {op inner : BinaryOp} (h : inner.precedence = op.precedence)
    (x y : Arithmetic) : graft a op (graft x inner y) = graft (graft a op x) inner y := by
  induction y with
  | column => exact graft_binary h
  | binary l o r ihl =>
      by_cases ho : o.precedence = inner.precedence
      · rw [graft_binary ho, graft_binary ho, graft_binary (ho.trans h), ihl]
      · rw [graft_of_ne (y := .binary l o r) ho, graft_of_ne (y := .binary l o r) ho, graft_binary h]

@[simp] theorem level_regrouped (e : Arithmetic) : e.regrouped.level = e.level := by
  cases e with
  | column => rfl
  | binary l op r =>
      simp only [regrouped]
      split
      · rfl
      · exact level_graft ..

theorem needsParens_left (op : BinaryOp) (l : Arithmetic) :
    Render.needsParens op false l.expr = true ↔ l.level < op.precedence := by
  cases l with
  | column => cases op <;> simp [Render.needsParens, expr, level, BinaryOp.precedence]
  | binary => simp [Render.needsParens, expr, level]

theorem needsParens_right (op : BinaryOp) (r : Arithmetic) :
    Render.needsParens op true r.expr = true ↔
      r.level < op.precedence ∨ r.level = op.precedence ∧ op.isLeftAssociativeOnly = true := by
  cases r with
  | column => cases op <;> simp [Render.needsParens, expr, level, BinaryOp.precedence]
  | binary => simp [Render.needsParens, expr, level]

/-- The innermost operator that waits binds less tightly. -/
def Below (precedence : Nat) : List Pending → Prop
  | .operator _ op :: _ => op.precedence < precedence
  | _ => True

/-- The innermost operator that waits binds at most as tightly, and the next one less than it. -/
def AtMost (precedence : Nat) : List Pending → Prop
  | .operator _ op :: ps => op.precedence ≤ precedence ∧ Below op.precedence ps
  | _ => True

theorem AtMost.mono {p q : Nat} {ps : List Pending} (h : AtMost p ps) (hpq : p ≤ q) : AtMost q ps :=
  match ps, h with
  | .operator .. :: _, h => ⟨h.1.trans hpq, h.2⟩
  | .parenthesis :: _, _ => trivial
  | [], _ => trivial

/-- An operand with what waits for it: an operator of the given precedence takes its left end. -/
def attached (precedence : Nat) (y : Arithmetic) : List Pending → Arithmetic × List Pending
  | .operator x op :: ps =>
    if op.precedence = precedence then (graft x op y, ps) else (y, .operator x op :: ps)
  | ps => (y, ps)

theorem attached_of_lt {p q : Nat} {ps : List Pending} (h : AtMost p ps) (hpq : p < q)
    (y : Arithmetic) : attached q y ps = (y, ps) := by
  match ps, h with
  | .operator _ op :: _, h =>
      have hne : op.precedence ≠ q := by have := h.1; omega
      rw [attached, if_neg hne]
  | .parenthesis :: _, _ => rfl
  | [], _ => rfl

theorem below_attached {p : Nat} {ps : List Pending} (h : AtMost p ps) (y : Arithmetic) :
    Below p (attached p y ps).2 := by
  match ps, h with
  | .operator _ op :: ps, h =>
      simp only [attached]
      split
      · rename_i heq
        exact heq ▸ h.2
      · exact Nat.lt_of_le_of_ne h.1 ‹_›
  | .parenthesis :: _, _ => trivial
  | [], _ => trivial

/-- What is made of the left operand does not depend on what its operator makes of it. -/
theorem attached_binary (l : Arithmetic) (op : BinaryOp) (r : Arithmetic) (ps : List Pending) :
    attached op.precedence (.binary l op r) ps =
      (.binary (attached op.precedence l ps).1 op r, (attached op.precedence l ps).2) := by
  match ps with
  | .operator x o :: ps =>
      by_cases h : o.precedence = op.precedence
      · simp only [attached, if_pos h, graft_binary h.symm]
      · simp only [attached, if_neg h]
  | .parenthesis :: _ => rfl
  | [] => rfl

theorem attached_graft (l : Arithmetic) (op : BinaryOp) (r : Arithmetic) (ps : List Pending) :
    attached op.precedence (graft l op r) ps =
      (graft (attached op.precedence l ps).1 op r, (attached op.precedence l ps).2) := by
  match ps with
  | .operator x o :: ps =>
      by_cases h : o.precedence = op.precedence
      · simp only [attached, if_pos h, graft_graft h.symm]
      · simp only [attached, if_neg h]
  | .parenthesis :: _ => rfl
  | [] => rfl

theorem applied_below {p : Nat} {ps : List Pending} (h : Below p ps) (y : Arithmetic) :
    applied p y ps = (y, ps) := by
  match ps, h with
  | .operator _ op :: _, h => rw [applied, if_neg (Nat.not_le.2 h)]
  | .parenthesis :: _, _ => rfl
  | [], _ => rfl

theorem applied_atMost {p : Nat} {ps : List Pending} (h : AtMost p ps) {y : Arithmetic}
    (hy : y.level ≠ p) : applied p y ps = attached p y ps := by
  match ps, h with
  | .operator x op :: ps, h =>
      by_cases heq : op.precedence = p
      · subst heq
        rw [applied, if_pos le_rfl, applied_below h.2, attached, if_pos rfl, graft_of_ne hy]
      · rw [applied, if_neg (by have := h.1; omega), attached, if_neg heq]
  | .parenthesis :: _, _ => rfl
  | [], _ => rfl

/-- Behind a left operand, what waits for it is settled by the operator that follows. -/
theorem applied_attached {p q : Nat} {ps : List Pending} (h : AtMost p ps) {y : Arithmetic}
    (hy : y.level = q) (hpq : p ≤ q) :
    applied p (attached q y ps).1 (attached q y ps).2 = attached p y ps := by
  obtain rfl | hlt := hpq.eq_or_lt
  · exact applied_below (below_attached h y) _
  · rw [attached_of_lt h hlt]
    exact applied_atMost h (hy.trans_ne hlt.ne')

/-- The text goes on with an operator of at most the given precedence, or with none. -/
def Loosens (precedence : Nat) (ls : List Lexeme) : Prop :=
  ∀ m rest, ls = .mark m :: rest → ∃ op, BinaryOp.ofSql? m = some op ∧ op.precedence ≤ precedence

theorem Loosens.mono {p q : Nat} {ls : List Lexeme} (h : Loosens p ls) (hpq : p ≤ q) : Loosens q ls :=
  fun m rest hls => (h m rest hls).imp fun _ hop => ⟨hop.1, hop.2.trans hpq⟩

theorem loosens_operator (op : BinaryOp) (ls : List Lexeme) :
    Loosens op.precedence (.mark op.sql :: ls) := by
  rintro m rest heq
  obtain ⟨rfl, rfl⟩ := by simpa using heq
  exact ⟨op, BinaryOp.ofSql?_sql op, le_rfl⟩

theorem loosens_closing (p : Nat) (ls : List Lexeme) : Loosens p (.closing .paren :: ls) := by
  rintro m rest heq
  simp at heq

/-- Reading on depends on what the operators that wait come to, once those are applied that bind
tighter than what follows. -/
theorem readOn?_congr {p : Nat} {x y : Arithmetic} {ps qs : List Pending} {ls : List Lexeme}
    (h : ∀ k ≤ p, applied k x ps = applied k y qs) (hls : Loosens p ls) :
    readOn? x ls ps = readOn? y ls qs := by
  unfold readOn?
  split
  · rename_i m rest
    obtain ⟨op, hop, hle⟩ := hls m rest rfl
    simp only [hop, Option.bind_eq_bind, Option.bind_some, h _ hle]
  · rw [h 0 p.zero_le]
  · rw [h 0 p.zero_le]
  · rfl

theorem readOn?_operator {x : Arithmetic} {op : BinaryOp} {ls : List Lexeme} {ps : List Pending} :
    readOn? x (.mark op.sql :: ls) ps =
      read? ls (.operator (applied op.precedence x ps).1 op :: (applied op.precedence x ps).2) := by
  simp [readOn?]

/-- The operator in front of a right operand is applied before what follows. -/
theorem readOn?_applied {x y : Arithmetic} {op : BinaryOp} {ls : List Lexeme} {ps : List Pending}
    (hls : Loosens op.precedence ls) :
    readOn? y ls (.operator x op :: ps) = readOn? (.binary x op y) ls ps := by
  refine readOn?_congr (fun k hk => ?_) hls
  rw [applied, if_pos hk]

def enclosed (needed : Bool) (ls : List Lexeme) : List Lexeme :=
  if needed then .opening .paren :: ls ++ [.closing .paren] else ls

/-- The text of an expression. -/
def lexemes : Arithmetic → List Lexeme
  | column none name => [.unit (.name name)]
  | column (some q) name => [.unit (.name q), .mark ".", .unit (.name name)]
  | binary l op r =>
    enclosed (Render.needsParens op false l.expr) l.lexemes ++
      .mark op.sql :: enclosed (Render.needsParens op true r.expr) r.lexemes

theorem attached_column {ps : List Pending} (qualifier : Option String) (name : String)
    (h : AtMost 9 ps) : attached 10 (.column qualifier name) ps = (.column qualifier name, ps) :=
  attached_of_lt h (by decide) _

theorem atMost_nine {p : Nat} {ps : List Pending} (h : AtMost p ps) : AtMost 9 ps :=
  match ps, h with
  | .operator _ op :: _, h => ⟨by cases op <;> decide, h.2⟩
  | .parenthesis :: _, _ => trivial
  | [], _ => trivial

/-- A name that no dot follows is a column. -/
theorem read?_name {p : Nat} {ls : List Lexeme} (hls : Loosens p ls) (name : String)
    (ps : List Pending) : read? (.unit (.name name) :: ls) ps = readOn? (.column none name) ls ps := by
  unfold read?
  split <;> rename_i heq
  · simp at heq
  · obtain ⟨rfl, rfl⟩ := by simpa using heq
    obtain ⟨op, hop, -⟩ := hls _ _ rfl
    simp [show BinaryOp.ofSql? "." = none by decide] at hop
  · obtain ⟨rfl, rfl⟩ := by simpa using heq
    rfl
  · exact absurd rfl (heq name ls)

/-- The text of an expression is read as the expression, regrouped, over any operators that wait and
bind no tighter than it. -/
def ReadsBack (e : Arithmetic) : Prop :=
  ∀ ps ls, AtMost e.level ps → Loosens e.level ls → read? (e.lexemes ++ ls) ps =
    readOn? (attached e.level e.regrouped ps).1 ls (attached e.level e.regrouped ps).2

namespace ReadsBack

theorem column (qualifier : Option String) (name : String) : ReadsBack (.column qualifier name) := by
  intro ps ls hps hls
  simp only [regrouped, level, attached_column qualifier name (atMost_nine hps)]
  cases qualifier with
  | none => exact read?_name hls name ps
  | some q => rfl

/-- An expression between parentheses is an operand of its own. -/
theorem enclosed {e : Arithmetic} (h : ReadsBack e) (ls : List Lexeme) (ps : List Pending) :
    read? (Arithmetic.enclosed true e.lexemes ++ ls) ps = readOn? e.regrouped ls ps := by
  have hinner := h (.parenthesis :: ps) (.closing .paren :: ls) trivial (loosens_closing _ _)
  simp only [Arithmetic.enclosed, if_true, List.cons_append, List.append_assoc, List.nil_append,
    read?]
  rw [hinner]
  simp [attached, readOn?, applied]

theorem left {l : Arithmetic} (h : ReadsBack l) {op : BinaryOp} {ps : List Pending}
    (hps : AtMost op.precedence ps) (ls : List Lexeme) :
    read? (Arithmetic.enclosed (Render.needsParens op false l.expr) l.lexemes ++
        .mark op.sql :: ls) ps =
      read? ls (.operator (attached op.precedence l.regrouped ps).1 op ::
        (attached op.precedence l.regrouped ps).2) := by
  cases hneeded : Render.needsParens op false l.expr with
  | true =>
      have hlt := (needsParens_left op l).1 hneeded
      rw [h.enclosed, readOn?_operator, applied_atMost hps (by simpa using hlt.ne)]
  | false =>
      have hle : op.precedence ≤ l.level := by
        rw [← Nat.not_lt, ← needsParens_left, hneeded]
        exact Bool.false_ne_true
      rw [Arithmetic.enclosed, if_neg Bool.false_ne_true,
        h ps _ (hps.mono hle) ((loosens_operator op ls).mono hle), readOn?_operator,
        applied_attached hps (level_regrouped l) hle]

theorem right {r : Arithmetic} (h : ReadsBack r) {op : BinaryOp} (x : Arithmetic) {ps : List Pending}
    (hps : Below op.precedence ps) {ls : List Lexeme} (hls : Loosens op.precedence ls) :
    read? (Arithmetic.enclosed (Render.needsParens op true r.expr) r.lexemes ++ ls)
        (.operator x op :: ps) =
      readOn? (if Render.needsParens op true r.expr then .binary x op r.regrouped
        else graft x op r.regrouped) ls ps := by
  cases hneeded : Render.needsParens op true r.expr with
  | true => rw [h.enclosed, readOn?_applied hls, if_pos rfl]
  | false =>
      have hle : op.precedence ≤ r.level := by
        rw [← Nat.not_lt]
        intro hlt
        rw [(needsParens_right op r).2 (.inl hlt)] at hneeded
        exact Bool.noConfusion hneeded
      rw [Arithmetic.enclosed, if_neg Bool.false_ne_true, if_neg Bool.false_ne_true,
        h (.operator x op :: ps) ls ⟨hle, hps⟩ (hls.mono hle)]
      by_cases heq : op.precedence = r.level
      · simp only [attached, if_pos heq]
      · simp only [attached, if_neg heq]
        rw [readOn?_applied hls, graft_of_ne (by simpa using Ne.symm heq)]

theorem binary {l r : Arithmetic} (hl : ReadsBack l) (op : BinaryOp) (hr : ReadsBack r) :
    ReadsBack (.binary l op r) := by
  intro ps ls hps hls
  rw [level] at hps hls ⊢
  simp only [lexemes, List.append_assoc, List.cons_append]
  rw [hl.left hps, hr.right _ (below_attached hps _) hls, regrouped]
  split
  · rw [attached_binary]
  · rw [attached_graft]

end ReadsBack

theorem readsBack (e : Arithmetic) : ReadsBack e := by
  induction e with
  | column qualifier name => exact .column qualifier name
  | binary l op r hl hr => exact hl.binary op hr

theorem read?_lexemes (e : Arithmetic) : read? e.lexemes [] = some e.regrouped := by
  have h := readsBack e [] [] trivial (by rintro m rest heq; simp at heq)
  simpa [attached, readOn?, applied] using h

end Arithmetic

end DialectSql
