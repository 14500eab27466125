import DialectSql.Json.Reader
import DialectSql.Value

namespace DialectSql.Store

/-- A token of statement text. A placeholder may carry its position. -/
inductive Token
  | word (text : String)
  | integer (value : Nat)
  | decimal (digits : Nat) (places : Nat)
  | text (value : String)
  | blob (bytes : List UInt8)
  | placeholder (position : Option Nat)
  | symbol (c : Char)
deriving DecidableEq, Repr

namespace Token

/-- What has been read of the token that is being read; the last character comes first. -/
inductive Mode
  | between
  | word (read : List Char)
  | number (read : List Char)
  | position (read : List Char)
  | quoted (isBlob : Bool) (read : List Char)
  | afterQuote (isBlob : Bool) (read : List Char)

def isBlank (c : Char) : Bool := c == ' ' || c == '\t' || c == '\n' || c == '\r' || c == '\x0c'

def isNameStart (c : Char) : Bool := c.isAlpha || c == '_' || 128 ≤ c.toNat

def isNameChar (c : Char) : Bool := isNameStart c || c.isDigit || c == '$'

def isSymbol (c : Char) : Bool := "(),.=*-".toList.contains c

def digitsValue (ds : List Char) : Nat := ds.foldl (fun n c => 10 * n + (c.toNat - 48)) 0

def number? (cs : List Char) : Option Token :=
  let whole := cs.takeWhile Char.isDigit
  match cs.dropWhile Char.isDigit with
  | [] => some (.integer (digitsValue whole))
  | '.' :: fraction =>
    if fraction.all Char.isDigit then
      some (.decimal (digitsValue (whole ++ fraction)) fraction.length)
    else none
  | _ => none

def bytes? : List Char → Option (List UInt8)
  | [] => some []
  | a :: b :: rest => do
    let a ← Json.Reader.hexDigit? a
    let b ← Json.Reader.hexDigit? b
    (bytes? rest).map (UInt8.ofNat (16 * a + b) :: ·)
  | _ => none

/-- The token that ends where a mode is left; none if it cannot end there. -/
def finish : Mode → Option (List Token)
  | .between => some []
  | .word cs => some [.word (String.ofList cs.reverse)]
  | .number cs => (number? cs.reverse).map ([·])
  | .position cs => if cs.isEmpty then none else some [.placeholder (some (digitsValue cs.reverse))]
  | .quoted _ _ => none
  | .afterQuote false cs => some [.text (String.ofList cs.reverse)]
  | .afterQuote true cs => (bytes? cs.reverse).map fun bytes => [.blob bytes]

/-- The tokens that are complete with a character that starts a token, and the mode after it. -/
def start (c : Char) : Option (List Token × Mode) :=
  if isBlank c then some ([], .between)
  else if isNameStart c then some ([], .word [c])
  else if c.isDigit then some ([], .number [c])
  else if c = '\'' then some ([], .quoted false [])
  else if c = '?' then some ([.placeholder none], .between)
  else if c = '$' then some ([], .position [])
  else if isSymbol c then some ([.symbol c], .between)
  else none

def restart (m : Mode) (c : Char) : Option (List Token × Mode) := do
  let ended ← finish m
  let (tokens, next) ← start c
  some (ended ++ tokens, next)

def step (m : Mode) (c : Char) : Option (List Token × Mode) :=
  match m with
  | .between => start c
  | .word cs =>
    if isNameChar c then some ([], .word (c :: cs))
    else if c = '\'' ∧ (cs = ['X'] ∨ cs = ['x']) then some ([], .quoted true [])
    else restart m c
  | .number cs =>
    if c.isDigit ∨ c = '.' then some ([], .number (c :: cs))
    else if isNameChar c then none
    else restart m c
  | .position cs =>
    if c.isDigit then some ([], .position (c :: cs))
    else if isNameChar c then none
    else restart m c
  | .quoted isBlob cs =>
      some ([], if c = '\'' then .afterQuote isBlob cs else .quoted isBlob (c :: cs))
  | .afterQuote isBlob cs => if c = '\'' then some ([], .quoted isBlob (c :: cs)) else restart m c

def read (m : Mode) : List Char → Option (List Token)
  | [] => finish m
  | c :: cs => do
    let (tokens, next) ← step m c
    let rest ← read next cs
    some (tokens ++ rest)

/-- Placeholders without a position take the next one, from left to right. -/
def numberPlaceholders (next : Nat) : List Token → List Token
  | [] => []
  | .placeholder none :: ts => .placeholder (some next) :: numberPlaceholders (next + 1) ts
  | t :: ts => t :: numberPlaceholders next ts

def ofText? (sql : String) : Option (List Token) :=
  (read .between sql.toList).map (numberPlaceholders 1)

end Token

end DialectSql.Store
