import DialectSql.Number.Shortest

namespace DialectSql

namespace Decimal

def zeros (n : Nat) : String := String.ofList (List.replicate n '0')

/-- Digits with a point, never an exponent: `0.05`, `12.5`, `1200`. -/
def positional (d : Decimal) : String :=
  let digits := toString d.digits
  let point : Int := (digits.length : Int) + d.exponent
  if 0 ≤ d.exponent then digits ++ zeros d.exponent.toNat
  else if point ≤ 0 then "0." ++ zeros (-point).toNat ++ digits
  else String.ofList (digits.toList.take point.toNat) ++ "." ++
    String.ofList (digits.toList.drop point.toNat)

/-- One digit before the point and an exponent with its sign: `1e+30`, `1.5e-7`. -/
def scientific (d : Decimal) : String :=
  let digits := (toString d.digits).toList
  let exponent : Int := (digits.length : Int) + d.exponent - 1
  let fraction := digits.drop 1
  String.ofList (digits.take 1) ++ (if fraction.isEmpty then "" else "." ++ String.ofList fraction)
    ++ (if exponent < 0 then "e" else "e+") ++ toString exponent

/-- Positional while the point falls inside the first sixteen digits or at most five places before
them, scientific otherwise. An integer keeps one decimal place. -/
def compact (d : Decimal) : String :=
  let point : Int := ((toString d.digits).length : Int) + d.exponent
  if -5 < point ∧ point ≤ 16 then
    if 0 ≤ d.exponent then d.positional ++ ".0" else d.positional
  else d.scientific

end Decimal

namespace Binary64

/-- The text of a number inside a statement: the shortest digits that read back, without an
exponent; an integer is written in full with one decimal place. -/
def statementText (x : Binary64) : String :=
  let sign := if x.isNegative then "-" else ""
  if x.isNaN then "NaN"
  else if !x.isFinite then sign ++ "inf"
  else match x.natAbs? with
    | some n => sign ++ toString n ++ ".0"
    | none => sign ++ (x.shortest .up).positional

/-- The text of a number inside a document; a number that is not finite has none. -/
def documentText (x : Binary64) : String :=
  if !x.isFinite then "null"
  else
    let sign := if x.isNegative then "-" else ""
    if x.isZero then sign ++ "0.0" else sign ++ (x.shortest .toEven).compact

def hex (x : Binary64) : String :=
  let digits := Nat.toDigits 16 x.bits.toNat
  String.ofList (List.replicate (16 - digits.length) '0' ++ digits)

end Binary64

end DialectSql
