import DialectSql.Number.Nearest

namespace DialectSql

namespace Binary64

/-- The number nearest to `num / den * 2 ^ exponent`. -/
def ofScaled (num den : Nat) (exponent : Int) : Option Binary64 :=
  ofQuotient false (num * Nat.pow 2 exponent.toNat) (den * Nat.pow 2 (-exponent).toNat)

/-- The rounded product of two numbers that are not negative. -/
def product (x y : Binary64) : Option Binary64 :=
  ofScaled (x.significand * y.significand) 1 (x.exponent + y.exponent)

/-- The rounded quotient of a number that is not negative by a positive one. -/
def quotient (x y : Binary64) : Option Binary64 :=
  ofScaled x.significand y.significand (x.exponent - y.exponent)

/-- The largest power of ten that is finite has this exponent. -/
def largestPower : Nat := 308

def powerOfTen (n : Nat) : Option Binary64 := ofQuotient false (Nat.pow 10 n) 1

/-- Divides by powers of ten, as large as there are. -/
def scaleDown (x : Binary64) (n : Nat) : Option Binary64 :=
  if n ≤ largestPower then do x.quotient (← powerOfTen n)
  else if x.isZero then some x
  else do (← x.quotient (← powerOfTen largestPower)).scaleDown (n - largestPower)
termination_by n
decreasing_by
  simp only [largestPower] at *
  omega

def scaleUp (x : Binary64) (n : Nat) : Option Binary64 :=
  if n ≤ largestPower then do x.product (← powerOfTen n)
  else if x.isZero then some x
  else none

def withSign (negative : Bool) (x : Binary64) : Binary64 :=
  if negative then ⟨x.bits ||| ((1 : UInt64) <<< 63)⟩ else x

/-- A number near `digits * 10 ^ exponent`, rounded once for the digits and once for each power of
ten; none if it is too large to be finite. -/
def ofDecimalStepwise (negative : Bool) (digits : Nat) (exponent : Int) : Option Binary64 := do
  let x ← ofInt digits
  let x ← if 0 ≤ exponent then x.scaleUp exponent.toNat else x.scaleDown (-exponent).toNat
  some (x.withSign negative)

end Binary64

end DialectSql
