import DialectSql.Proofs.Listing
import DialectSql.Proofs.Number.Point
import DialectSql.Proofs.SetOperation.Layout

namespace DialectSql

/-- What a sort item sorts by: a column of the select list by its position, the value of an
expression, or one of two numbers that a condition chooses between. -/
inductive OrderTerm
  | column (position : Nat)
  | expression (text : List Lexeme)
  | choice (condition : Condition) (whenTrue otherwise : Nat)
deriving DecidableEq, Repr

namespace Piece

/-- The number that a literal or a name is spelled as. -/
def numeral? : Piece → Option Nat
  | .plain s | .name s =>
    if s.toList.all Char.isDigit && !s.toList.isEmpty then some (Nat.ofDigitChars 10 s.toList 0)
    else none
  | _ => none

theorem numeral?_plain {s : String} {c : Char} (hc : c ∈ s.toList) (h : c.isDigit = false) :
    (plain s).numeral? = none := by
  have hall : s.toList.all Char.isDigit = false :=
    List.all_eq_false.2 ⟨c, hc, by simp [h]⟩
  simp [numeral?, hall]

end Piece

namespace Part

/-- A part that can be the last one of an expression. -/
def isValue : Part → Bool
  | leaf (.word _) | leaf (.number _) => false
  | _ => true

/-- The parts between a `case` and its `end`. -/
def inCase? : Part → Option (List Part)
  | group (.opening .case :: text) _ => collect text.dropLast [] []
  | _ => none

theorem inCase?_enclose {ls : List Lexeme} {ps : List Part} (h : Reads ls ps) :
    (enclose .case ps).inCase? = some ps := by
  rw [enclose, inCase?.eq_def]
  simp [h.text, h.parts]

end Part

namespace OrderTerm

/-- Reads a `case` with a null test that gives one of two numbers. -/
def choice? : List Part → Option OrderTerm
  | .leaf (.word "when") :: ps =>
    match ps.dropWhile fun p => !p.isKey "is" with
    | [is, null, .leaf (.word "then"), .leaf (.number m), .leaf (.word "else"), .leaf (.number n)] =>
      some (.choice (.ofParts ((ps.takeWhile fun p => !p.isKey "is") ++ [is, null])) m n)
    | _ => none
  | _ => none

/-- Reads what a sort item sorts by. An unsigned integer is a position in the select list. -/
def ofParts : List Part → OrderTerm
  | [.leaf (.number n)] => .column n
  | [.leaf (.unit p)] => p.numeral?.elim (.expression [.unit p]) .column
  | [.group text c] => (((Part.group text c).inCase?).bind choice?).getD (.expression text)
  | ps => .expression (partsText ps)

theorem ofParts_case {ls : List Lexeme} {ps : List Part} (h : Reads ls ps) :
    ofParts [Part.enclose .case ps] =
      (choice? ps).getD (.expression (Part.enclose .case ps).text) := by
  have hcase := Part.inCase?_enclose h
  rw [Part.enclose] at hcase ⊢
  rw [ofParts, hcase]
  rfl

theorem choice?_of_last {ps : List Part} {p : Part} (hlast : ps.getLast? = some p)
    (hp : p.isValue = true) : choice? ps = none := by
  unfold choice?
  split
  · rename_i qs
    split
    · rename_i is null m n hrest
      have hsuffix := List.dropWhile_suffix (l := qs) fun p => !p.isKey "is"
      obtain ⟨before, hbefore⟩ := hrest ▸ hsuffix
      rw [← hbefore, ← List.cons_append, List.getLast?_append] at hlast
      obtain rfl := Option.some_inj.1 hlast
      cases hp
    · rfl
  · rfl

/-- A text with a keyword outside brackets is not a number and not one `case`. -/
theorem ofParts_of_leaf {ps : List Part} {l : Lexeme} (hl : .leaf l ∈ ps) (hkey : l.key?.isSome) :
    ofParts ps = .expression (partsText ps) := by
  unfold ofParts
  split
  · obtain rfl := Part.leaf.inj (List.mem_singleton.1 hl)
    cases hkey
  · obtain rfl := Part.leaf.inj (List.mem_singleton.1 hl)
    cases hkey
  · cases List.mem_singleton.1 hl
  · rfl

theorem ofParts_of_head {ps : List Part} {l m : Lexeme} {ls : List Lexeme}
    (htext : partsText ps = l :: m :: ls) (hl : l ≠ .opening .case) :
    ofParts ps = .expression (partsText ps) := by
  unfold ofParts
  split
  · simp [Part.text] at htext
  · simp [Part.text] at htext
  · rename_i text c
    have hnone : (Part.group text c).inCase? = none := by
      unfold Part.inCase?
      split
      · rename_i heq
        obtain ⟨rfl, -⟩ := Part.group.inj heq
        simp only [partsText_cons, Part.text, partsText_nil, List.append_nil,
          List.cons.injEq] at htext
        exact absurd htext.1.symm hl
      · rfl
    simp [hnone, Part.text]
  · rfl

end OrderTerm

namespace Output

open Layers (reading)

variable {a b o : Output}

/-- The last part of a text can end an expression. -/
def EndsValue (o : Output) : Prop :=
  o.failure = none → ∃ p, o.parts.getLast? = some p ∧ p.isValue = true

namespace EndsValue

theorem append (ha : a.Within Lexeme.ofQuery) (hb : b.Within Lexeme.ofQuery) (h : b.EndsValue) :
    (a ++ b).EndsValue := by
  intro hok
  obtain ⟨p, hlast, hp⟩ := h (failure_append_eq_none.1 hok).2
  exact ⟨p, by simp [parts_append ha hb hok, hlast], hp⟩

theorem concat {os : List Output} (hne : os ≠ [])
    (h : ∀ o ∈ os, o.Within Lexeme.ofQuery ∧ o.EndsValue) : (Output.concat os).EndsValue := by
  induction os with
  | nil => exact absurd rfl hne
  | cons o os ih =>
      change (o ++ Output.concat os).EndsValue
      cases os with
      | nil =>
          rw [show Output.concat [] = .empty from rfl, append_empty]
          exact (h o (by simp)).2
      | cons p os =>
          have hrest : ∀ q ∈ p :: os, q.Within Lexeme.ofQuery ∧ q.EndsValue := fun q hq =>
            h q (List.mem_cons_of_mem o hq)
          exact append (h o (by simp)).1 (reading.ofQuery.concat fun q hq => (hrest q hq).1)
            (ih (by simp) hrest)

theorem operand (d : Dialect) (e : Expr) : (Render.operand d e).output.EndsValue := by
  intro hok
  have hwithin : (Render.operand d e).output.Within Lexeme.ofExpression :=
    reading.operand (reading.operandHolds d e)
  have hends := Ends.operand d e hok
  rw [lexemes, ← (hwithin.reads hok).text] at hends
  obtain hnil | ⟨before, p, hparts⟩ := (Render.operand d e).output.parts.eq_nil_or_concat
  · simp [hnil] at hends
  have hallowed := hwithin.parts_allowed hok p (by simp [hparts])
  refine ⟨p, by simp [hparts], ?_⟩
  cases p with
  | group => rfl
  | leaf l =>
      cases l with
      | word w => simp [hparts, Part.text, Lexeme.ends] at hends
      | number n => simp [Part.isAllowed, Lexeme.ofExpression, Lexeme.isNumber] at hallowed
      | mark | opening | closing | unit => rfl

end EndsValue

theorem parts_bracketed {w v : String} (bracket : Bracket) (behind after : List Lexeme)
    (hw : Lexeme.ofWord w = .opening bracket :: behind) (hbehind : behind.all Lexeme.ofQuery = true)
    (hv : Lexeme.ofWord v = .closing bracket :: after) (hafter : after.all Lexeme.ofQuery = true)
    (ho : o.Within Lexeme.ofQuery) (hok : o.failure = none) :
    (word w ++ o ++ word v).parts =
      Part.enclose bracket (behind.map .leaf ++ o.parts) :: after.map .leaf := by
  have hwo : (word w ++ o).failure = none := by simpa using hok
  have hgroup := ((Reads.flat hbehind).append (ho.reads hok)).enclose bracket
  apply parts_of_reads
  rw [pieces_append hwo, pieces_append rfl, Lexeme.ofPieces_append, Lexeme.ofPieces_append,
    pieces_word, pieces_word, Lexeme.ofPieces_word, Lexeme.ofPieces_word, hw, hv]
  simpa using hgroup.append (.flat hafter)

/-- What is sorted by is the value of the whole text. -/
def IsOrderExpression (o : Output) : Prop :=
  o.failure = none → OrderTerm.ofParts o.parts = .expression (partsText o.parts)

namespace IsOrderExpression

theorem separated {w : String} {l : Lexeme} (ha : a.Within Lexeme.ofQuery)
    (hb : b.Within Lexeme.ofQuery) (hflat : (Lexeme.ofWord w).all Lexeme.ofQuery = true)
    (hl : l ∈ Lexeme.ofWord w) (hkey : l.key?.isSome) : (a ++ word w ++ b).IsOrderExpression := by
  intro hok
  have hword := reading.ofQuery.word hflat
  refine OrderTerm.ofParts_of_leaf ?_ hkey
  rw [parts_append (ha.append hword) hb hok,
    parts_append ha hword (failure_append_eq_none.1 hok).1, parts_word hflat]
  simp [hl]

theorem prefixed {w : String} {l : Lexeme} (ho : o.Within Lexeme.ofQuery)
    (hflat : (Lexeme.ofWord w).all Lexeme.ofQuery = true) (hl : l ∈ Lexeme.ofWord w)
    (hkey : l.key?.isSome) : (word w ++ o).IsOrderExpression := by
  rw [← empty_append (word w)]
  exact separated reading.ofQuery.empty ho hflat hl hkey

theorem parenthesized (ho : o.Within Lexeme.ofQuery) : o.parenthesized.IsOrderExpression := by
  intro hok
  rw [failure_parenthesized] at hok
  rw [parts_parenthesized ho hok, partsText_cons, partsText_nil, List.append_nil]
  rfl

/-- A text that begins with two units and not with a `case`. -/
theorem of_head {l m : Lexeme} (hok : a.failure = none) (htext : a.lexemes = [l, m])
    (hl : l ≠ .opening .case) (h : (a ++ b).Within Lexeme.ofQuery) :
    (a ++ b).IsOrderExpression := by
  intro habok
  have hall : (a ++ b).lexemes = l :: m :: b.lexemes := by rw [lexemes_append hok, htext]; rfl
  exact OrderTerm.ofParts_of_head ((h.reads habok).text.trans hall) hl

theorem unit {p : Piece} (hp : Lexeme.ofPiece p = [.unit p]) (hnone : p.numeral? = none) :
    (ofPieces [p]).IsOrderExpression := by
  have hparts : (ofPieces [p]).parts = [.leaf (.unit p)] := by
    rw [parts_of_reads (.flat (by simp [Lexeme.ofPieces, hp, Lexeme.ofQuery, Lexeme.isBracket]))]
    simp [Lexeme.ofPieces, hp]
  intro _
  rw [hparts, OrderTerm.ofParts, hnone]
  rfl

end IsOrderExpression

end Output

/-- An expression that is written as a numeral. -/
def Expr.isNumeral (d : Dialect) : Expr → Bool
  | .literal (.int _) => true
  | .literal (.bool _) => d.capabilities.booleanLiterals == .integer
  | .column none name => (Piece.name name).numeral?.isSome
  | _ => false

namespace Render

open Output (Within)
open Output.Layers (reading)

variable (d : Dialect)

theorem operand_within (e : Expr) : (operand d e).output.Within Lexeme.ofExpression :=
  reading.operand (reading.operandHolds d e)

theorem whenClauses_endsValue (bs : List WhenClause) :
    ∀ o ∈ whenClauses d bs, o.EndsValue := by
  induction bs with
  | nil => simp [whenClauses]
  | cons b bs ih =>
      obtain ⟨condition, result⟩ := b
      rw [whenClauses]
      refine List.forall_mem_cons.2 ⟨?_, ih⟩
      have hcondition : (predicate d condition).Within Lexeme.ofQuery :=
        reading.query_of_condition (reading.predicateHolds d condition)
      refine .append (reading.ofQuery.append (reading.ofQuery.append
        (reading.ofQuery.fixed _ rfl) hcondition) (reading.ofQuery.fixed _ rfl))
        (reading.query_of_expression (operand_within d result)) (.operand d result)

/-- The inside of a `case` ends with a value of the statement. -/
theorem caseOf_inside (branches : List WhenClause) (otherwise : Option Expr)
    (hne : (whenClauses d branches) ≠ []) :
    (Output.concat (whenClauses d branches) ++ .clause " else "
      (otherwise.map fun e => (operand d e).output)).Within Lexeme.ofQuery ∧
    (Output.concat (whenClauses d branches) ++ .clause " else "
      (otherwise.map fun e => (operand d e).output)).EndsValue := by
  have hwhen := reading.whenClausesHold d branches
  have hbranches := reading.ofQuery.concat hwhen
  cases otherwise with
  | none =>
      rw [Option.map_none, show Output.clause " else " none = .empty from rfl, Output.append_empty]
      exact ⟨hbranches, .concat hne fun o ho => ⟨hwhen o ho, whenClauses_endsValue d branches o ho⟩⟩
  | some e =>
      have he := reading.query_of_expression (operand_within d e)
      have hkeyword := reading.ofQuery.fixed " else " rfl
      have helse := reading.ofQuery.append hkeyword he
      exact ⟨reading.ofQuery.append hbranches helse, .append hbranches helse
        (.append hkeyword he (.operand d e))⟩

/-- A `case` of a statement gives values, and no numbers of the language. -/
theorem isOrderExpression_caseOf (branches : List WhenClause) (otherwise : Option Expr) :
    (caseOf (whenClauses d branches)
      (otherwise.map fun e => (operand d e).output)).IsOrderExpression := by
  rw [caseOf]
  split
  · intro hok
    simp at hok
  rename_i hne
  obtain ⟨hwithin, hends⟩ := caseOf_inside d branches otherwise (by simpa using hne)
  rw [Output.append_assoc (.word "case")]
  intro hok
  have hinside := (Output.failure_append_eq_none.1 (Output.failure_append_eq_none.1 hok).1).2
  obtain ⟨p, hlast, hp⟩ := hends hinside
  rw [Output.parts_bracketed .case [] [] (by decide) rfl (by decide) rfl hwithin hinside, List.map_nil, List.nil_append,
    OrderTerm.ofParts_case (hwithin.reads hinside), OrderTerm.choice?_of_last hlast hp,
    Option.getD_none, partsText_cons, partsText_nil, List.append_nil]

theorem isOrderExpression_literal {v : SqlValue} (hv : Expr.isNumeral d (.literal v) = false) :
    (literal d v).IsOrderExpression := by
  have hquoted (s : String) := reading.ofQuery.unit (p := .quoted s) rfl rfl
  cases v with
  | null => exact .unit rfl (by decide)
  | bool b =>
      rw [literal.eq_def]
      split
      · rename_i b hstyle
        simp [Expr.isNumeral, hstyle] at hv
      · exact .unit rfl (by cases b <;> decide)
  | int n => cases hv
  | float x =>
      obtain ⟨c, hc, hdigit⟩ := x.exists_notDigit_statementText
      exact .unit rfl (Piece.numeral?_plain hc hdigit)
  | text s => exact .unit rfl rfl
  | blob bytes => exact .prefixed (w := "X") (hquoted _) rfl (List.mem_singleton_self _) rfl
  | timestamp t =>
      exact .prefixed (w := "timestamp ") (hquoted _) rfl (List.mem_singleton_self _) rfl

/-- What is no numeral is sorted by as the expression that it is. -/
theorem isOrderExpression_operand {e : Expr} (he : e.isNumeral d = false) :
    (operand d e).output.IsOrderExpression := by
  have hwithin := reading.query_of_expression (operand_within d e)
  have hblank := reading.ofQuery.fixed " " rfl
  have hqualified (q : String) {o : Output} (ho : o.Within Lexeme.ofQuery) :
      (qualified (some q) o).IsOrderExpression :=
    .separated (reading.ofQuery.name q) ho rfl (List.mem_singleton_self (Lexeme.mark ".")) rfl
  cases e with
  | column q name =>
      cases q with
      | none => exact .unit rfl (by simpa [Expr.isNumeral] using he)
      | some q => exact hqualified q (reading.ofQuery.name name)
  | literal v => exact isOrderExpression_literal d he
  | parameter slot => exact .unit rfl rfl
  | tuple es => exact .parenthesized (reading.operandList (reading.operandsHolds d es))
  | summarization kind groupings =>
      have hlist := reading.operandList (reading.operandsHolds d groupings)
      rw [operand, Operand.output, summarization]
      split
      · intro hok
        simp at hok
      · cases kind <;> exact .prefixed (reading.ofQuery.parenthesized hlist) rfl
          (List.mem_singleton_self _) rfl
  | binary left op right =>
      have hside (condition : Bool) (e : Expr) :=
        reading.query_of_expression (reading.wrap condition (operand_within d e))
      have hshape : (operand d (.binary left op right)).output =
          wrap (needsParens op false left) (operand d left).output ++ .word " " ++ .word op.sql ++
            (.word " " ++ wrap (needsParens op true right) (operand d right).output) :=
        Output.append_assoc _ _ _
      have hleft := reading.ofQuery.append (hside (needsParens op false left) left) hblank
      have hright := reading.ofQuery.append hblank (hside (needsParens op true right) right)
      rw [hshape]
      cases op <;> exact .separated hleft hright rfl (List.mem_singleton_self _) rfl
  | negate e =>
      exact .prefixed (w := "-") (reading.query_of_expression
        (reading.wrap _ (operand_within d e))) rfl (List.mem_singleton_self _) rfl
  | function name args distinct =>
      have hshape : (operand d (.function name args distinct)).output =
          (.name name ++ .word "(") ++ (.when distinct (.word "distinct ") ++
            (.list (operandOutputs (operands d args)) ++ .word ")")) := by
        simp only [operand, Operand.output, call, Output.append_assoc]
      rw [hshape] at hwithin ⊢
      exact .of_head rfl (l := .unit (.name name)) (m := .opening .paren) rfl (by simp) hwithin
  | case branches otherwise =>
      cases otherwise with
      | none => exact isOrderExpression_caseOf d branches none
      | some e => exact isOrderExpression_caseOf d branches (some e)
  | cast e type =>
      have hshape : (operand d (.cast e type)).output = .word "cast(" ++
          ((operand d e).output ++ (.word " as " ++ (.name type.sql ++ .word ")"))) := by
        simp only [operand, Operand.output, Output.append_assoc]
      rw [hshape] at hwithin ⊢
      exact .of_head rfl (l := .word "cast") (m := .opening .paren) rfl (by simp) hwithin
  | subquery q => exact .parenthesized (reading.queryHolds d q).output
  | quantified quantifier q =>
      have hquery := reading.ofQuery.append hblank
        (reading.ofQuery.parenthesized (reading.queryHolds d q).output)
      rw [operand, Operand.output, Output.append_assoc]
      cases quantifier <;> exact .prefixed hquery rfl (List.mem_singleton_self _) rfl
  | windowed function partitionBy keys frame =>
      have hfunction := reading.query_of_expression (operand_within d function)
      have hwindow := reading.ofQuery.parenthesized (reading.window frame
        (reading.partitionHolds d partitionBy) (reading.sortKeysHold d keys))
      exact .separated hfunction hwindow (w := " over ") rfl (List.mem_singleton_self _) rfl
  | star q =>
      cases q with
      | none => exact fun _ => rfl
      | some q => exact hqualified q (reading.ofQuery.fixed "*" rfl)

end Render

end DialectSql
