import DialectSql.Number.Binary64

namespace DialectSql

/-- Which neighbour is taken when a value lies exactly between two decimals. -/
inductive Tie
  | up
  | toEven
deriving DecidableEq, Repr

structure Decimal where
  digits : Nat
  exponent : Int
deriving DecidableEq, Repr

namespace Decimal

def stripZeros : Nat → Decimal → Decimal
  | 0, d => d
  | fuel + 1, d =>
    if d.digits ≠ 0 ∧ d.digits % 10 = 0 then stripZeros fuel ⟨d.digits / 10, d.exponent + 1⟩ else d

end Decimal

namespace Binary64

/-- The interval of numbers that round to a given one: `low`, `value` and `high` over one
denominator, the ends included or not. -/
structure Interval where
  low : Nat
  value : Nat
  high : Nat
  den : Nat
  closed : Bool

namespace Interval

def scale (i : Interval) (exponent : Int) : Interval :=
  if 0 ≤ exponent then { i with den := i.den * Nat.pow 10 exponent.toNat }
  else
    let p := Nat.pow 10 (-exponent).toNat
    { i with low := i.low * p, value := i.value * p, high := i.high * p }

def contains (i : Interval) (n : Nat) : Bool :=
  let x := n * i.den
  if i.closed then i.low ≤ x && x ≤ i.high else i.low < x && x < i.high

/-- The integer of the interval nearest to its value, if the interval holds one of the two
neighbours of the value. -/
def nearest? (i : Interval) (tie : Tie) : Option Nat :=
  let below := i.value / i.den
  let twice := 2 * (i.value % i.den)
  let preferUp : Bool := match tie with
    | .up => i.den ≤ twice
    | .toEven => i.den < twice || (twice == i.den && below % 2 == 1)
  let (first, second) := if preferUp then (below + 1, below) else (below, below + 1)
  if i.contains first then some first
  else if i.contains second then some second
  else none

def leadingExponent (i : Interval) : Int :=
  let guess : Int :=
    ((Nat.toDigits 10 i.value).length : Int) - ((Nat.toDigits 10 i.den).length : Int)
  let scaled := i.scale guess
  if scaled.den ≤ scaled.value then guess else guess - 1

/-- Searches the grids of step `10 ^ exponent`, coarse to fine. -/
def search (i : Interval) (tie : Tie) : Nat → Int → Decimal
  | 0, exponent => ⟨(i.scale exponent).value / (i.scale exponent).den, exponent⟩
  | fuel + 1, exponent =>
    match (i.scale exponent).nearest? tie with
    | some n => ⟨n, exponent⟩
    | none => search i tie fuel (exponent - 1)

end Interval

/-- A quarter of the spacing is the unit, so that the halfway points are integers. -/
def interval (x : Binary64) : Interval :=
  let m := x.significand
  let q := x.exponent - 2
  let low := 4 * m - (if x.isBinadeStart then 1 else 2)
  let p := Nat.pow 2 q.toNat
  ⟨low * p, 4 * m * p, (4 * m + 2) * p, Nat.pow 2 (-q).toNat, m % 2 == 0⟩

/-- The decimal with the fewest digits that reads back as `|x|`, the nearest of those. Seventeen
digits always suffice. -/
def shortest (tie : Tie) (x : Binary64) : Decimal :=
  if x.isZero then ⟨0, 0⟩
  else
    let i := x.interval
    (i.search tie 17 i.leadingExponent).stripZeros 20

end Binary64

end DialectSql
