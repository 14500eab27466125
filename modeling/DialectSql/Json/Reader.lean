import DialectSql.Json.Value
import DialectSql.Number.Stepwise

namespace DialectSql

namespace Json

namespace Reader

def isBlank (c : Char) : Bool := c == ' ' || c == '\n' || c == '\t' || c == '\r'

def skipBlanks (cs : List Char) : List Char := cs.dropWhile isBlank

def hexDigit? (c : Char) : Option Nat :=
  let n := c.toNat
  if 48 ≤ n ∧ n ≤ 57 then some (n - 48)
  else if 65 ≤ n ∧ n ≤ 70 then some (n - 55)
  else if 97 ≤ n ∧ n ≤ 102 then some (n - 87)
  else none

def hex4 (a b c d : Char) : Option Nat := do
  let a ← hexDigit? a
  let b ← hexDigit? b
  let c ← hexDigit? c
  let d ← hexDigit? d
  some (a * 4096 + b * 256 + c * 16 + d)

def isHighSurrogate (n : Nat) : Bool := 0xd800 ≤ n && n < 0xdc00

def isLowSurrogate (n : Nat) : Bool := 0xdc00 ≤ n && n < 0xe000

def simpleEscape (c : Char) : Option Char :=
  match c with
  | '"' => some '"'
  | '\\' => some '\\'
  | '/' => some '/'
  | 'b' => some '\x08'
  | 'f' => some '\x0c'
  | 'n' => some '\n'
  | 'r' => some '\r'
  | 't' => some '\t'
  | _ => none

def follow (c : Option Char) (tail : Option (List (Option Char) × List Char)) :
    Option (List (Option Char) × List Char) :=
  tail.map fun (cs, rest) => (c :: cs, rest)

/-- A character outside the basic plane, by the two halves of its surrogate pair. -/
def joinSurrogates (high low : Nat) : Char :=
  Char.ofNat (0x10000 + (high - 0xd800) * 1024 + (low - 0xdc00))

/-- The characters up to the closing quote; the opening one has been read. The escape of half a
surrogate pair stands for no character. -/
def chars : List Char → Option (List (Option Char) × List Char)
  | [] => none
  | '"' :: rest => some ([], rest)
  | '\\' :: 'u' :: a :: b :: c :: d :: rest =>
    match hex4 a b c d with
    | none => none
    | some n =>
      if isHighSurrogate n then
        match rest with
        | '\\' :: 'u' :: e :: f :: g :: h :: rest =>
          match hex4 e f g h with
          | none => none
          | some low =>
            if isLowSurrogate low then follow (some (joinSurrogates n low)) (chars rest)
            else follow none (chars rest)
        | rest => follow none (chars rest)
      else if isLowSurrogate n then follow none (chars rest)
      else follow (some (Char.ofNat n)) (chars rest)
  | '\\' :: c :: rest =>
    match simpleEscape c with
    | none => none
    | some d => follow (some d) (chars rest)
  | c :: rest => if c = '\\' ∨ c.toNat < 32 then none else follow (some c) (chars rest)

/-- A text, if all its characters are there. -/
def text (cs : List Char) : Option (Option String × List Char) :=
  (chars cs).map fun (ds, rest) => ((ds.mapM id).map String.ofList, rest)

def digitsValue (ds : List Char) : Nat := ds.foldl (fun n c => 10 * n + (c.toNat - 48)) 0

def digits (cs : List Char) : List Char × List Char :=
  (cs.takeWhile Char.isDigit, cs.dropWhile Char.isDigit)

def digits1 (cs : List Char) : Option (List Char × List Char) :=
  let (ds, rest) := digits cs
  if ds.isEmpty then none else some (ds, rest)

/-- No zero stands before another digit. -/
def wholePart (cs : List Char) : Option (List Char × List Char) := do
  let (ds, rest) ← digits1 cs
  if ds.head? = some '0' ∧ ds.length ≠ 1 then none else some (ds, rest)

def fractionPart : List Char → Option (List Char × List Char)
  | '.' :: rest => digits1 rest
  | rest => some ([], rest)

def exponentPart : List Char → Option (Option Int × List Char)
  | c :: rest =>
    if c = 'e' ∨ c = 'E' then
      match rest with
      | '-' :: rest => (digits1 rest).map fun (ds, r) => (some (-(digitsValue ds : Int)), r)
      | '+' :: rest => (digits1 rest).map fun (ds, r) => (some (digitsValue ds : Int), r)
      | rest => (digits1 rest).map fun (ds, r) => (some (digitsValue ds : Int), r)
    else some (none, c :: rest)
  | [] => some (none, [])

structure Numeral where
  negative : Bool
  whole : List Char
  fraction : List Char
  exponent : Option Int

namespace Numeral

def nearest (n : Numeral) : Option Binary64 :=
  Binary64.ofDecimal n.negative (digitsValue (n.whole ++ n.fraction))
    (n.exponent.getD 0 - (n.fraction.length : Int))

/-- The value of the first digits behind others, as long as it fits 64 bits, and how many digits
are left. -/
def leadingValue (value : Nat) : List Char → Nat × Nat
  | [] => (value, 0)
  | c :: cs =>
    let next := 10 * value + (c.toNat - 48)
    if next < Nat.pow 2 64 then leadingValue next cs else (value, cs.length + 1)

/-- A float near the number, from its leading digits, in steps of which each is rounded. -/
def stepwise (n : Numeral) : Option Binary64 :=
  let (value, dropped) := leadingValue 0 n.whole
  let (value, unread) := leadingValue value n.fraction
  Binary64.ofDecimalStepwise n.negative value
    (n.exponent.getD 0 + (dropped : Int) + (unread : Int) - (n.fraction.length : Int))

/-- A number without fraction and exponent that fits 64 bits, signed or not. -/
def integer? (n : Numeral) : Option Int :=
  let value := digitsValue n.whole
  let fits : Bool :=
    if n.negative then 0 < value && value ≤ Nat.pow 2 63 else value < Nat.pow 2 64
  if n.fraction.isEmpty && n.exponent.isNone && fits then
    some (if n.negative then -(value : Int) else value)
  else none

/-- Minus zero and whatever is no integer are floats. -/
def value (round : Numeral → Option Binary64) (n : Numeral) : Json :=
  match n.integer? with
  | some i => .int i
  | none => ((round n).map Json.float).getD .void

end Numeral

def numeral (cs : List Char) : Option (Numeral × List Char) := do
  let (negative, cs) := match cs with
    | '-' :: rest => (true, rest)
    | rest => (false, rest)
  let (whole, cs) ← wholePart cs
  let (fraction, cs) ← fractionPart cs
  let (exponent, cs) ← exponentPart cs
  some (⟨negative, whole, fraction, exponent⟩, cs)

/-- An object by its members, if all their names are there. -/
def objectOf (members : List (Option String × Json)) : Json :=
  match members.mapM fun (k, j) => k.map (·, j) with
  | some members => .object members
  | none => .void

section

variable (round : Numeral → Option Binary64)

mutual
def value : Nat → List Char → Option (Json × List Char)
  | 0, _ => none
  | fuel + 1, cs =>
    match skipBlanks cs with
    | 'n' :: 'u' :: 'l' :: 'l' :: rest => some (.null, rest)
    | 't' :: 'r' :: 'u' :: 'e' :: rest => some (.bool true, rest)
    | 'f' :: 'a' :: 'l' :: 's' :: 'e' :: rest => some (.bool false, rest)
    | '"' :: rest => do
      let (s, rest) ← text rest
      some ((s.map Json.string).getD .void, rest)
    | '[' :: rest =>
      match skipBlanks rest with
      | ']' :: rest => some (.array [], rest)
      | rest => do
        let (items, rest) ← items fuel rest
        some (.array items, rest)
    | '\x7b' :: rest =>
      match skipBlanks rest with
      | '\x7d' :: rest => some (.object [], rest)
      | rest => do
        let (members, rest) ← members fuel rest
        some (objectOf members, rest)
    | rest => (numeral rest).map fun (n, rest) => (n.value round, rest)
def items : Nat → List Char → Option (List Json × List Char)
  | 0, _ => none
  | fuel + 1, cs => do
    let (j, rest) ← value fuel cs
    match skipBlanks rest with
    | ',' :: rest => do
      let (js, rest) ← items fuel rest
      some (j :: js, rest)
    | ']' :: rest => some ([j], rest)
    | _ => none
def members : Nat → List Char → Option (List (Option String × Json) × List Char)
  | 0, _ => none
  | fuel + 1, cs =>
    match skipBlanks cs with
    | '"' :: rest => do
      let (k, rest) ← text rest
      match skipBlanks rest with
      | ':' :: rest => do
        let (j, rest) ← value fuel rest
        match skipBlanks rest with
        | ',' :: rest => do
          let (ms, rest) ← members fuel rest
          some ((k, j) :: ms, rest)
        | '\x7d' :: rest => some ([(k, j)], rest)
        | _ => none
      | _ => none
    | _ => none
end

end

end Reader

/-- Reads one document, with a way to round its numbers; only blanks may follow it. -/
def parseWith? (round : Reader.Numeral → Option Binary64) (s : String) : Option Json := do
  let cs := s.toList
  let (j, rest) ← Reader.value round (2 * cs.length + 2) cs
  if (Reader.skipBlanks rest).isEmpty then some j else none

def parse? (s : String) : Option Json := parseWith? Reader.Numeral.nearest s

end Json

end DialectSql
