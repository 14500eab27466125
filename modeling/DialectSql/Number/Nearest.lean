import DialectSql.Number.Binary64

namespace DialectSql

namespace Binary64

/-- The quotient rounded to the nearest integer, a half to the even neighbour. -/
def roundQuotient (num den : Nat) : Nat :=
  let q := num / den
  let twice := 2 * (num % den)
  if den < twice || (twice == den && q % 2 == 1) then q + 1 else q

/-- The number nearest to `significand * 2 ^ exponent`-sized quotients: `num / den` is rounded on
the grid of step `2 ^ exponent`. A carry into the next binade gives the same field arithmetic. -/
def ofGrid (negative : Bool) (num den : Nat) (exponent : Int) : Option Binary64 :=
  let (n, d) :=
    if 0 ≤ exponent then (num, den * Nat.pow 2 exponent.toNat)
    else (num * Nat.pow 2 (-exponent).toNat, den)
  let m := roundQuotient n d
  let field := if m < Nat.pow 2 52 then m else (exponent + 1074).toNat * Nat.pow 2 52 + m
  if 2047 * Nat.pow 2 52 ≤ field then none
  else some ⟨UInt64.ofNat ((if negative then Nat.pow 2 63 else 0) + field)⟩

/-- The number nearest to `num / den`, ties to even; none if it is too large to be finite. -/
def ofQuotient (negative : Bool) (num den : Nat) : Option Binary64 :=
  if num = 0 then some (zero negative)
  else
    let guess : Int := (Nat.log2 num : Int) - (Nat.log2 den : Int) - 52
    let reaches : Bool :=
      if 0 ≤ guess then den * Nat.pow 2 (guess.toNat + 52) ≤ num
      else den * Nat.pow 2 52 ≤ num * Nat.pow 2 (-guess).toNat
    let exponent := if reaches then guess else guess - 1
    ofGrid negative num den (max exponent (-1074))

/-- The number nearest to `digits * 10 ^ exponent`. Magnitudes far outside the range are settled
without computing the power. -/
def ofDecimal (negative : Bool) (digits : Nat) (exponent : Int) : Option Binary64 :=
  let magnitude : Int := ((Nat.log2 digits : Int) * 3) / 10 + exponent
  if digits = 0 then some (zero negative)
  else if 400 < magnitude then none
  else if magnitude < -500 then some (zero negative)
  else if 0 ≤ exponent then ofQuotient negative (digits * Nat.pow 10 exponent.toNat) 1
  else ofQuotient negative digits (Nat.pow 10 (-exponent).toNat)

def ofInt (n : Int) : Option Binary64 := ofQuotient (decide (n < 0)) n.natAbs 1

end Binary64

end DialectSql
