import Deli.Decimal

/-! Numbers that are kept in 53 binary digits. What does not fit is rounded to the nearest number
that does, and of two nearest ones to the one whose last digit is zero. Numbers beyond all of them
count as infinite. -/

namespace Deli

inductive Rounded where
  | finite (x : Dyadic)
  | infinite (negative : Bool)
  /-- What comes of a calculation that has no result, such as the sum of opposite infinities. -/
  | undefined
  deriving DecidableEq

namespace Rounded

/-- No digit stands behind this binary place. -/
def lowestPlace : Int := -1074

/-- All finite numbers are below this power of two. -/
def limit : Int := 1024

/-- The whole number nearest to a quotient, the even one of two. -/
def nearest (n d : Nat) : Nat :=
  let q := n / d
  let twice := 2 * (n % d)
  if twice < d || (twice == d && q % 2 == 0) then q else q + 1

/-- `n / d` in units of two to the power of a place, as another quotient. -/
def inUnits (n d : Nat) (place : Int) : Nat × Nat :=
  (n <<< (-place).toNat, d <<< place.toNat)

/-- The place of the last of 53 digits of `n / d`. -/
def lastPlace (n d : Nat) : Int :=
  let guess := (n.log2 : Int) - d.log2 - 53
  let (m, e) := inUnits n d guess
  max (if m < e <<< 53 then guess else guess + 1) lowestPlace

def ofQuotient (negative : Bool) (n d : Nat) : Rounded :=
  let place := lastPlace n d
  let (m, e) := inUnits n d place
  let digits := nearest m e
  if digits != 0 && digits.log2 + place ≥ limit then infinite negative
  else finite (Dyadic.ofIntWithPrec (if negative then -digits else digits) (-place))

def ofInt (n : Int) : Rounded := ofQuotient (n < 0) n.natAbs 1

/-- Decimal numbers of more places than this before the point, or of so many zeros behind it,
are beyond all others. -/
def maxPlaces : Int := 400

def ofDecimal (d : Decimal) : Rounded :=
  let places := d.exponent + (toString d.coefficient).length
  if d.coefficient == 0 || places < -maxPlaces then finite 0
  else if places > maxPlaces then infinite d.negative
  else if d.exponent < 0 then ofQuotient d.negative d.coefficient (Nat.pow 10 (-d.exponent).toNat)
  else ofQuotient d.negative (d.coefficient * Nat.pow 10 d.exponent.toNat) 1

/-- An exact result in 53 digits. -/
def ofExact (x : Dyadic) : Rounded :=
  let r := x.toRat
  ofQuotient (r.num < 0) r.num.natAbs r.den

def neg : Rounded → Rounded
  | finite x => finite (-x)
  | infinite negative => infinite !negative
  | undefined => undefined

def add : Rounded → Rounded → Rounded
  | finite x, finite y => ofExact (x + y)
  | infinite s, infinite t => if s == t then infinite s else undefined
  | infinite s, finite _ | finite _, infinite s => infinite s
  | undefined, _ | _, undefined => undefined

def isNegative : Rounded → Bool
  | finite x => x < 0
  | infinite negative => negative
  | undefined => false

def isZero : Rounded → Bool
  | finite x => x == 0
  | _ => false

def mul : Rounded → Rounded → Rounded
  | finite x, finite y => ofExact (x * y)
  | undefined, _ | _, undefined => undefined
  | x, y => if x.isZero || y.isZero then undefined else infinite (x.isNegative != y.isNegative)

/-! Back to decimal digits. -/

/-- The least power of ten that is above `n / d`, by its exponent. -/
def placesOf (n d : Nat) : Int :=
  let guess : Int := (toString n).length - (toString d).length
  if n * Nat.pow 10 (-guess).toNat < d * Nat.pow 10 guess.toNat then guess else guess + 1

/-- `n / d` with no more than so many digits: the two decimal numbers around it, the nearer one
first. -/
def inDigits (negative : Bool) (n d count : Nat) : List Decimal :=
  let exponent := placesOf n d - count
  let m := n * Nat.pow 10 (-exponent).toNat
  let e := d * Nat.pow 10 exponent.toNat
  let below : Decimal := ⟨negative, m / e, exponent⟩
  let above : Decimal := ⟨negative, m / e + 1, exponent⟩
  if 2 * (m % e) ≤ e then [below, above] else [above, below]

/-- A number with as few decimal digits as tell it from all others; seventeen always do. -/
def shortest (x : Dyadic) : Decimal :=
  let r := x.toRat
  let around := inDigits (r.num < 0) r.num.natAbs r.den
  let found := (List.range 17).findSome? fun i =>
    (around (i + 1)).find? fun d => decide (ofDecimal d = finite x)
  if r.num = 0 then ⟨false, 0, 0⟩ else found.getD ⟨r.num < 0, r.num.natAbs, 0⟩

end Rounded

end Deli
