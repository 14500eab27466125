import DialectSql.Proofs.Truth
import DialectSql.Render.Output

namespace DialectSql

inductive Bracket
  | paren
  | case
deriving DecidableEq, Repr

/-- A unit of condition text. What a statement supplies, such as a name, a literal or a placeholder,
is one unit, however it is spelled. -/
inductive Lexeme
  | word (text : String)
  | number (value : Nat)
  | mark (text : String)
  | opening (b : Bracket)
  | closing (b : Bracket)
  | unit (p : Piece)
deriving DecidableEq, Repr

namespace Lexeme

inductive CharKind
  | blank
  | letter
  | digit
  | bracket
  | mark
deriving DecidableEq

def charKind (c : Char) : CharKind :=
  if c = ' ' then .blank
  else if c.isAlpha then .letter
  else if c.isDigit then .digit
  else if c = '(' ∨ c = ')' ∨ c = ',' then .bracket
  else .mark

/-- Characters of one kind that stand together are one unit, brackets and commas apart. -/
def joins (a b : Char) : Bool := charKind a = charKind b ∧ charKind a ≠ .bracket

def ofLetters (w : String) : Lexeme :=
  if w = "case" then .opening .case
  else if w = "end" then .closing .case
  else .word w

def ofRun (run : List Char) : Option Lexeme :=
  match run.head?.map charKind with
  | some .letter => some (ofLetters (String.ofList run))
  | some .digit => some (.number (run.foldl (fun n c => 10 * n + (c.toNat - 48)) 0))
  | some .bracket =>
    some (if run = ['('] then .opening .paren else if run = [')'] then .closing .paren else .mark ",")
  | some .mark => some (.mark (String.ofList run))
  | _ => none

def ofWord (text : String) : List Lexeme := (text.toList.splitBy joins).filterMap ofRun

def ofPiece : Piece → List Lexeme
  | .word text => ofWord text
  | .gap _ | .followOnLock _ => []
  | p => [.unit p]

def ofPieces (ps : List Piece) : List Lexeme := ps.flatMap ofPiece

end Lexeme

/-- A condition as it is read: tests under negations, conjunctions and disjunctions. A test of
another form than a comparison or a null test is kept as a whole. -/
inductive Condition
  | test (text : List Lexeme)
  | comparison (left : List Lexeme) (op : ComparisonOperator) (right : List Lexeme)
  | nullTest (operand : List Lexeme) (negated : Bool)
  | not (c : Condition)
  | and (a b : Condition)
  | or (a b : Condition)
deriving DecidableEq, Repr

/-- A unit outside brackets, or a bracketed group with the condition it holds. -/
inductive Part
  | leaf (l : Lexeme)
  | group (text : List Lexeme) (condition : Condition)
deriving DecidableEq, Repr

namespace Part

def text : Part → List Lexeme
  | leaf l => [l]
  | group text _ => text

def key? : Part → Option String
  | leaf (.word w) => some w
  | leaf (.mark m) => some m
  | _ => none

def isKey (w : String) (p : Part) : Bool := p.key? == some w

end Part

def partsText (ps : List Part) : List Lexeme := ps.flatMap Part.text

namespace Condition

/-- The alternatives that `or` separates; `seen` is the part of the first one read before. -/
def splitOr (seen : List Part) : List Part → List (List Part)
  | [] => [seen]
  | p :: ps => if p.isKey "or" then seen :: splitOr [] ps else splitOr (seen ++ [p]) ps

/-- The factors that `and` separates. The first `and` behind a `between` belongs to it. -/
def splitAnd (between : Bool) (seen : List Part) : List Part → List (List Part)
  | [] => [seen]
  | p :: ps =>
    if p.isKey "and" then
      if between then splitAnd false (seen ++ [p]) ps else seen :: splitAnd false [] ps
    else splitAnd (between || p.isKey "between") (seen ++ [p]) ps

def operator? : String → Option ComparisonOperator
  | "=" => some .equal
  | "<>" => some .notEqual
  | "<" => some .lessThan
  | "<=" => some .lessThanOrEqual
  | ">" => some .greaterThan
  | ">=" => some .greaterThanOrEqual
  | _ => none

/-- The test of an operand that goes on with the given parts, if these begin with an operator. -/
def continued? (operand : List Lexeme) (ps : List Part) : Option Condition :=
  match ps.map Part.key?, ps with
  | [some "is", some "null"], _ => some (.nullTest operand false)
  | [some "is", some "not", some "null"], _ => some (.nullTest operand true)
  | some "is" :: some "distinct" :: some "from" :: _, _ =>
    some (.comparison operand .distinct (partsText (ps.drop 3)))
  | some "is" :: some "not" :: some "distinct" :: some "from" :: _, _ =>
    some (.comparison operand .notDistinct (partsText (ps.drop 4)))
  | some m :: _, _ => (operator? m).map fun op => .comparison operand op (partsText (ps.drop 1))
  | _, _ => none

/-- A test, read from left to right up to its operator. -/
def readTest (seen : List Lexeme) : List Part → Condition
  | [] => .test seen
  | p :: ps => (continued? seen (p :: ps)).getD (readTest (seen ++ p.text) ps)

def readFactor : List Part → Condition
  | [] => .test []
  | [.group _ c] => c
  | p :: ps => if p.isKey "not" then .not (readFactor ps) else readTest [] (p :: ps)

def joinWith (f : Condition → Condition → Condition) : List Condition → Condition
  | [] => .test []
  | [c] => c
  | c :: cs => f c (joinWith f cs)

/-- Reads a condition: `not` before `and` before `or`. -/
def ofParts (ps : List Part) : Condition :=
  joinWith .or ((splitOr [] ps).map fun qs =>
    joinWith .and ((splitAnd false [] qs).map readFactor))

end Condition

namespace Part

/-- A list or a query in brackets holds no condition. -/
def isListing (ps : List Part) : Bool := ps.any fun p => p.isKey "," || p.isKey "select"

def enclose (b : Bracket) (inner : List Part) : Part :=
  let text := .opening b :: partsText inner ++ [.closing b]
  .group text (if b = .paren ∧ !isListing inner then .ofParts inner else .test text)

/-- Collects the parts of a text. `seen` is what was read of the group that is open, `outer` holds
the groups around it, the innermost first. -/
def collect : List Lexeme → (seen : List Part) → (outer : List (Bracket × List Part)) →
    Option (List Part)
  | [], seen, [] => some seen
  | [], _, _ :: _ => none
  | .opening b :: ls, seen, outer => collect ls [] ((b, seen) :: outer)
  | .closing _ :: _, _, [] => none
  | .closing b :: ls, seen, (b', before) :: outer =>
    if b = b' then collect ls (before ++ [enclose b seen]) outer else none
  | l :: ls, seen, outer => collect ls (seen ++ [.leaf l]) outer

/-- The parts of a rendered text; none if its brackets do not match. -/
def ofPieces? (ps : List Piece) : Option (List Part) := collect (Lexeme.ofPieces ps) [] []

end Part

/-- The values of the operands and of the tests that are kept as a whole, by their texts. -/
structure Valuation (α : Type*) where
  operand : List Lexeme → Option α
  test : List Lexeme → Truth

namespace Condition

variable {α : Type*} [LinearOrder α]

/-- The value of a condition. Numbers that are part of the language stand for themselves. -/
def truth (V : Valuation α) : Condition → Truth
  | test text => V.test text
  | comparison [.number m] op [.number n] => op.truth (some m) (some n)
  | comparison l op r => op.truth (V.operand l) (V.operand r)
  | nullTest e negated => .ofBool ((V.operand e).isNone != negated)
  | not c => (c.truth V).not
  | and a b => (a.truth V).and (b.truth V)
  | or a b => (a.truth V).or (b.truth V)

end Condition

/-- The value of a rendered condition, read from its text. -/
def Output.truth? {α : Type*} [LinearOrder α] (V : Valuation α) (o : Output) : Option Truth :=
  (Part.ofPieces? o.pieces).map fun ps => (Condition.ofParts ps).truth V

end DialectSql
