/-! Numbers written with a decimal point. -/

namespace Deli

/-- The number `± coefficient * 10 ^ exponent`. -/
structure Decimal where
  negative : Bool
  coefficient : Nat
  exponent : Int
  deriving DecidableEq, Repr

namespace Decimal

def isZero (d : Decimal) : Bool := d.coefficient == 0

/-- `n` without its trailing zeros, and how many those were. -/
def stripZeros (n : Nat) : Nat × Nat :=
  if _h : n ≠ 0 ∧ n % 10 = 0 then
    let (m, k) := stripZeros (n / 10)
    (m, k + 1)
  else (n, 0)
  termination_by n
  decreasing_by omega

private def zeros (n : Nat) : String := String.ofList (List.replicate n '0')

/-- At least two digits and always a sign. -/
private def exponentText (e : Int) : String :=
  let digits := toString e.natAbs
  (if e < 0 then "-" else "+") ++ zeros (2 - digits.length) ++ digits

/-- Positional as long as the point falls at most three places before the first digit and at
most sixteen after it, with at least one digit on either side of the point; else scientific. -/
def text (d : Decimal) : String :=
  let (m, k) := stripZeros d.coefficient
  let digits := toString m
  let point : Int := if m = 0 then 1 else digits.length + d.exponent + k
  let body :=
    if point < -3 ∨ 16 < point then
      let rest := String.ofList (digits.toList.drop 1)
      String.ofList (digits.toList.take 1) ++ (if rest = "" then "" else "." ++ rest)
        ++ "e" ++ exponentText (point - 1)
    else if point ≤ 0 then "0." ++ zeros point.natAbs ++ digits
    else if digits.length ≤ point.toNat then digits ++ zeros (point.toNat - digits.length) ++ ".0"
    else String.ofList (digits.toList.take point.toNat) ++ "."
      ++ String.ofList (digits.toList.drop point.toNat)
  (if d.negative then "-" else "") ++ body

end Decimal

end Deli
