import DialectSql.Proofs.Condition.Reading
import DialectSql.Proofs.Output
import DialectSql.Render.Statement

namespace DialectSql

namespace Lexeme

def isBracket : Lexeme → Bool
  | opening _ | closing _ => true
  | _ => false

def key? : Lexeme → Option String
  | word w => some w
  | mark m => some m
  | _ => none

/-- The words that begin a clause behind the tables of a query. -/
def clauseWords : List String :=
  ["where", "group", "having", "order", "offset", "fetch", "limit", "for"]

/-- The words that begin a limit of the rows. -/
def limitWords : List String := ["offset", "fetch", "limit"]

/-- The words that stand between the members of a set operation. -/
def setWords : List String := ["union", "intersect", "except", "minus"]

/-- The words that stand neither among the tables of a query nor in its select list. -/
def outsideWords : List String := clauseWords ++ setWords ++ ["rows"]

def listingWords : List String := ["select", ",", "on"]

def connectiveWords : List String := ["and", "or", "between"]

def operatorWords : List String := ["not", "is", "=", "<>", "<", "<=", ">", ">="]

/-- A unit outside brackets that is none of the given words. -/
def avoids (words : List String) (l : Lexeme) : Bool :=
  !l.isBracket && !l.key?.any words.contains

def isNumber : Lexeme → Bool
  | number _ => true
  | _ => false

def ofExpression (l : Lexeme) : Bool :=
  l.avoids (outsideWords ++ listingWords ++ connectiveWords ++ operatorWords) && !l.isNumber

def ofTest (l : Lexeme) : Bool := l.avoids (outsideWords ++ listingWords ++ connectiveWords)

def ofCondition (l : Lexeme) : Bool := l.avoids (outsideWords ++ listingWords)

def ofSource (l : Lexeme) : Bool := l.avoids outsideWords

def ofClause (l : Lexeme) : Bool := l.avoids (["where", "having"] ++ setWords)

def ofQuery (l : Lexeme) : Bool := !l.isBracket

theorem ofQuery_of_avoids {words : List String} {l : Lexeme} (h : l.avoids words = true) :
    l.ofQuery = true := by
  simp only [avoids, Bool.and_eq_true] at h
  exact h.1

/-- The word opens one bracket, behind units that are allowed. -/
def opens (allowed : Lexeme → Bool) (b : Bracket) (w : String) : Bool :=
  let behind := (ofWord w).dropWhile ofQuery
  ((ofWord w).takeWhile ofQuery).all allowed && behind.head? == some (.opening b) &&
    behind.tail.all ofQuery

/-- The word closes one bracket, in front of units that are allowed. -/
def closes (allowed : Lexeme → Bool) (b : Bracket) (w : String) : Bool :=
  (ofWord w).head? == some (.closing b) && (ofWord w).tail.all allowed

end Lexeme

namespace Piece

/-- A piece that notes a gap or a lock and has no text. -/
def isNote : Piece → Bool
  | .gap _ | .followOnLock _ => true
  | _ => false

def isWord : Piece → Bool
  | .word _ => true
  | _ => false

end Piece

namespace Output

/-- A property of outputs that is kept when outputs are put together with allowed words, every
bracket closed by the one that opens it, and no note. What stands in brackets has the property
`inner`. -/
structure Closed (allowed : Lexeme → Bool) (inner P : Output → Prop) : Prop where
  empty : P .empty
  fail : ∀ e, P (.fail e)
  append : ∀ {a b}, P a → P b → P (a ++ b)
  word : ∀ {w}, (Lexeme.ofWord w).all allowed = true → P (.word w)
  pair : ∀ {w b}, Lexeme.ofWord w = [.opening b, .closing b] → P (.word w)
  unit : ∀ {p : Piece}, p.isWord = false → p.isNote = false → P (.ofPieces [p])
  group : ∀ {w v b o}, Lexeme.opens allowed b w = true → Lexeme.closes allowed b v = true →
    inner o → P (.word w ++ o ++ .word v)

namespace Closed

variable {allowed : Lexeme → Bool} {inner P : Output → Prop} (h : Closed allowed inner P)

include h

theorem fixed (w : String) (hw : (Lexeme.ofWord w).all allowed = true) :
    P (.word w) := h.word hw

theorem bracketed (b : Bracket) (w v : String) {o : Output} (hw : Lexeme.opens allowed b w = true)
    (hv : Lexeme.closes allowed b v = true) (ho : inner o) : P (.word w ++ o ++ .word v) :=
  h.group hw hv ho

theorem name (n : String) : P (.name n) := h.unit rfl rfl

theorem require (condition : Bool) (e : TranslateError) : P (.require condition e) := by
  cases condition
  · exact h.fail e
  · exact h.empty

theorem checkArity (m n : Nat) : P (DialectSql.checkArity m n) := h.require _ _

theorem when (condition : Bool) {o : Output} (ho : P o) : P (.when condition o) := by
  cases condition
  · exact h.empty
  · exact ho

theorem parenthesized {o : Output} (ho : inner o) : P o.parenthesized := by
  have hopen : Lexeme.ofWord "(" = [.opening .paren] := by decide
  have hclose : Lexeme.ofWord ")" = [.closing .paren] := by decide
  apply h.group (b := .paren) _ _ ho
  · simp [Lexeme.opens, hopen, Lexeme.ofQuery, Lexeme.isBracket]
  · simp [Lexeme.closes, hclose]

theorem joined {separator : String} {os : List Output}
    (hs : (Lexeme.ofWord separator).all allowed = true) (ho : ∀ o ∈ os, P o) :
    P (.joined separator os) := by
  induction os with
  | nil => exact h.empty
  | cons o os ih =>
      cases os with
      | nil => exact ho o (by simp)
      | cons p os =>
          have hrest := ih fun q hq => ho q (List.mem_cons_of_mem o hq)
          exact h.append (h.append (ho o (by simp)) (h.word hs)) hrest

theorem concat {os : List Output} (ho : ∀ o ∈ os, P o) : P (.concat os) := by
  induction os with
  | nil => exact h.empty
  | cons o os ih =>
      exact h.append (ho o (by simp)) (ih fun q hq => ho q (List.mem_cons_of_mem o hq))

theorem clause (keyword : String) {o : Option Output}
    (hk : (Lexeme.ofWord keyword).all allowed = true) (ho : ∀ p, o = some p → P p) :
    P (.clause keyword o) := by
  cases o with
  | none => exact h.empty
  | some p => exact h.append (h.word hk) (ho p rfl)

theorem label (l : Option String) : P (.label l) := by
  cases l with
  | none => exact h.empty
  | some a => exact h.append (h.fixed " " rfl) (h.name a)

end Closed

/-- A property for each layer of the text of a statement. Each layer may stand in the next one, and
any text may stand in brackets. -/
structure Layers where
  expression : Output → Prop
  test : Output → Prop
  condition : Output → Prop
  source : Output → Prop
  clause : Output → Prop
  query : Output → Prop
  ofExpression : Closed Lexeme.ofExpression query expression
  ofTest : Closed Lexeme.ofTest query test
  ofCondition : Closed Lexeme.ofCondition query condition
  ofSource : Closed Lexeme.ofSource query source
  ofClause : Closed Lexeme.ofClause query clause
  ofQuery : Closed Lexeme.ofQuery query query
  test_of_expression : ∀ {o}, expression o → test o
  condition_of_test : ∀ {o}, test o → condition o
  source_of_condition : ∀ {o}, condition o → source o
  clause_of_source : ∀ {o}, source o → clause o
  query_of_clause : ∀ {o}, clause o → query o

namespace Layers

variable (L : Layers) {o : Output}

theorem query_of_source (h : L.source o) : L.query o := L.query_of_clause (L.clause_of_source h)

theorem query_of_condition (h : L.condition o) : L.query o :=
  L.query_of_source (L.source_of_condition h)

theorem query_of_test (h : L.test o) : L.query o :=
  L.query_of_condition (L.condition_of_test h)

theorem condition_of_expression (h : L.expression o) : L.condition o :=
  L.condition_of_test (L.test_of_expression h)

theorem query_of_expression (h : L.expression o) : L.query o :=
  L.query_of_test (L.test_of_expression h)

theorem source_of_expression (h : L.expression o) : L.source o :=
  L.source_of_condition (L.condition_of_expression h)

theorem clause_of_expression (h : L.expression o) : L.clause o :=
  L.clause_of_source (L.source_of_expression h)

theorem list {os : List Output} (ho : ∀ o ∈ os, L.source o) : L.source (.list os) :=
  L.ofSource.joined rfl ho

theorem expressionList {os : List Output} (ho : ∀ o ∈ os, L.expression o) :
    L.query (.list os) :=
  L.query_of_source (L.list fun o h => L.source_of_expression (ho o h))

theorem nameList (names : List String) : L.query (.nameList names) := by
  apply L.query_of_source
  apply L.list
  intro o ho
  obtain ⟨n, -, rfl⟩ := List.mem_map.1 ho
  exact L.ofSource.name n

end Layers

end Output

mutual

/-- A property of the output of an operand and of all outputs that it is made of. -/
def Operand.Holds (L : Output.Layers) : Operand → Prop
  | .scalar o => L.expression o
  | .tuple es => operandsHold L es
  | .subquery q => q.Holds L
  | .quantified _ q => q.Holds L

def operandsHold (L : Output.Layers) : List Operand → Prop
  | [] => True
  | e :: es => e.Holds L ∧ operandsHold L es

def Subquery.Holds (L : Output.Layers) : Subquery → Prop
  | .setOperation o => L.query o
  | .spec o _ source restriction selections =>
    L.query o ∧ L.source source ∧ (∀ r, restriction = some r → L.condition r) ∧
      operandsHold L selections

end

theorem Subquery.Holds.output {L : Output.Layers} {q : Subquery} (h : q.Holds L) :
    L.query q.output := by
  cases q with
  | setOperation o => simpa [Subquery.Holds, Subquery.output] using h
  | spec o movable source restriction selections => exact h.1

theorem Operand.Holds.elements {L : Output.Layers} {e : Operand} (h : e.Holds L) :
    operandsHold L e.elements := by
  cases e with
  | tuple es => simpa [Operand.Holds, Operand.elements] using h
  | scalar | subquery | quantified => exact ⟨h, trivial⟩

theorem operandsHold_of_mem {L : Output.Layers} {es : List Operand} (h : operandsHold L es)
    {e : Operand} (he : e ∈ es) : e.Holds L := by
  induction es with
  | nil => cases he
  | cons f fs ih =>
      rcases List.mem_cons.1 he with rfl | he
      · exact h.1
      · exact ih h.2 he

namespace Output.Layers

variable (L : Layers)

mutual

theorem operand {e : Operand} (he : e.Holds L) : L.expression e.output := by
  match e with
  | .scalar o => simpa [Operand.Holds, Operand.output] using he
  | .tuple es =>
      exact L.ofExpression.parenthesized
        (L.expressionList (operands (by simpa [Operand.Holds] using he)))
  | .subquery q => exact L.ofExpression.parenthesized (Subquery.Holds.output he)
  | .quantified quantifier q =>
      cases quantifier <;>
        exact L.ofExpression.append
          (L.ofExpression.append (L.ofExpression.fixed _ rfl) (L.ofExpression.fixed _ rfl))
          (L.ofExpression.parenthesized (Subquery.Holds.output he))

theorem operands {es : List Operand} (he : operandsHold L es) :
    ∀ o ∈ operandOutputs es, L.expression o := by
  match es with
  | [] => simp [operandOutputs]
  | e :: es =>
      intro o ho
      rcases List.mem_cons.1 ho with rfl | ho
      · exact operand he.1
      · exact operands he.2 o ho

end

theorem operandList {es : List Operand} (he : operandsHold L es) :
    L.query (.list (operandOutputs es)) :=
  L.expressionList (L.operands he)

end Output.Layers

end DialectSql
