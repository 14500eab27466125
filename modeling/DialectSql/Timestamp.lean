namespace DialectSql

/-- A date and a time of day without a zone. A leap second is second 59 with a fraction of at
least one second. -/
structure Timestamp where
  year : Int
  month : Nat
  day : Nat
  hour : Nat
  minute : Nat
  second : Nat
  nanosecond : Nat
deriving DecidableEq, Inhabited, Repr

namespace Timestamp

def isLeapYear (year : Int) : Bool := year % 4 == 0 && (year % 100 != 0 || year % 400 == 0)

def daysInMonth (year : Int) (month : Nat) : Nat :=
  match month with
  | 2 => if isLeapYear year then 29 else 28
  | 4 | 6 | 9 | 11 => 30
  | _ => 31

def Valid (t : Timestamp) : Prop :=
  -262143 ≤ t.year ∧ t.year ≤ 262142 ∧ 1 ≤ t.month ∧ t.month ≤ 12 ∧
    1 ≤ t.day ∧ t.day ≤ daysInMonth t.year t.month ∧
    t.hour < 24 ∧ t.minute < 60 ∧ t.second < 60 ∧ t.nanosecond < 2000000000 ∧
    (1000000000 ≤ t.nanosecond → t.second = 59)

instance (t : Timestamp) : Decidable t.Valid := by
  unfold Valid
  infer_instance

/-- Decimal digits, padded with zeros to a least width. -/
def padded (width n : Nat) : String :=
  let digits := toString n
  String.ofList (List.replicate (width - digits.length) '0') ++ digits

/-- Four digits; outside 0 to 9999 a sign comes first. -/
def yearText (year : Int) : String :=
  if 0 ≤ year ∧ year ≤ 9999 then padded 4 year.natAbs
  else (if year < 0 then "-" else "+") ++ padded 4 year.natAbs

/-- No fraction, or 3, 6 or 9 digits, the least that is exact. -/
def fractionText (nanosecond : Nat) : String :=
  let n := nanosecond % 1000000000
  if n = 0 then ""
  else if n % 1000000 = 0 then "." ++ padded 3 (n / 1000000)
  else if n % 1000 = 0 then "." ++ padded 6 (n / 1000)
  else "." ++ padded 9 n

def text (separator : String) (t : Timestamp) : String :=
  yearText t.year ++ "-" ++ padded 2 t.month ++ "-" ++ padded 2 t.day ++ separator ++
    padded 2 t.hour ++ ":" ++ padded 2 t.minute ++ ":" ++
    padded 2 (t.second + t.nanosecond / 1000000000) ++ fractionText t.nanosecond

def documentText (t : Timestamp) : String := t.text "T"

def sqlText (t : Timestamp) : String := t.text " "

def isBlank (c : Char) : Bool :=
  let n := c.toNat
  (9 ≤ n && n ≤ 13) || n == 32 || n == 0x85 || n == 0xa0 || n == 0x1680 ||
    (0x2000 ≤ n && n ≤ 0x200a) || n == 0x2028 || n == 0x2029 || n == 0x202f || n == 0x205f ||
      n == 0x3000

def skipBlanks (cs : List Char) : List Char := cs.dropWhile isBlank

def digitsValue (ds : List Char) : Nat := ds.foldl (fun n c => 10 * n + (c.toNat - 48)) 0

def readDigits (width : Nat) (cs : List Char) : Option (Nat × List Char) :=
  let ds := (cs.take width).takeWhile Char.isDigit
  if ds.isEmpty then none else some (digitsValue ds, cs.drop ds.length)

def readNumber (cs : List Char) : Option (Nat × List Char) := readDigits 2 (skipBlanks cs)

def expect (c : Char) (cs : List Char) : Option (List Char) :=
  match skipBlanks cs with
  | d :: rest => if d = c then some rest else none
  | [] => none

/-- With a sign a year has any number of digits, without one at most four. -/
def readYear (cs : List Char) : Option (Int × List Char) :=
  match skipBlanks cs with
  | '-' :: rest => (readDigits rest.length rest).map fun (n, r) => (-(n : Int), r)
  | '+' :: rest => (readDigits rest.length rest).map fun (n, r) => ((n : Int), r)
  | rest => (readDigits 4 rest).map fun (n, r) => ((n : Int), r)

/-- Up to nine digits count; further ones are skipped. -/
def readFraction (cs : List Char) : Option (Nat × List Char) :=
  match cs with
  | '.' :: rest =>
    let ds := (rest.take 9).takeWhile Char.isDigit
    if ds.isEmpty then none
    else some (digitsValue ds * Nat.pow 10 (9 - ds.length), rest.dropWhile Char.isDigit)
  | _ => some (0, cs)

/-- Reads the document form. Blanks may stand before each number and mark and at the end, numbers
need no padding, and second 60 is a leap second. -/
def parse? (s : String) : Option Timestamp := do
  let (year, cs) ← readYear s.toList
  let cs ← expect '-' cs
  let (month, cs) ← readNumber cs
  let cs ← expect '-' cs
  let (day, cs) ← readNumber cs
  let cs ← expect 'T' cs
  let (hour, cs) ← readNumber cs
  let cs ← expect ':' cs
  let (minute, cs) ← readNumber cs
  let cs ← expect ':' cs
  let (second, cs) ← readNumber cs
  let (nanosecond, cs) ← readFraction cs
  let t : Timestamp :=
    if second = 60 then ⟨year, month, day, hour, minute, 59, nanosecond + 1000000000⟩
    else ⟨year, month, day, hour, minute, second, nanosecond⟩
  if (skipBlanks cs).isEmpty ∧ t.Valid then some t else none

end Timestamp

end DialectSql
