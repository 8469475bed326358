import Reckoner.Number.Binary64

/-!
# The fewest decimal digits that read back

Every finite number other than zero is the nearest binary64 number to each decimal in an interval
around it. The shortest decimal is found on ever finer decimal grids: the first grid with a point
in the interval wins, of two points the nearer one, and a tie is broken as the caller says. All
comparisons are exact, on natural numbers.
-/

namespace Reckoner

/-- The decimal number `digits · 10 ^ power`. -/
structure Decimal where
  /-- The significant digits. -/
  digits : Nat
  /-- The power of ten of the last digit. -/
  power : Int
deriving DecidableEq, Repr

/-- Which of two equally near decimals is taken. -/
inductive TieRule where
  /-- The one of larger magnitude. -/
  | away
  /-- The one with an even last digit. -/
  | even
deriving DecidableEq, Repr

namespace Decimal

/-- The same number without trailing zero digits; `fuel` bounds how many are dropped. -/
def strip : Nat → Decimal → Decimal
  | 0, d => d
  | fuel + 1, d =>
    if d.digits ≠ 0 ∧ d.digits % 10 = 0 then strip fuel ⟨d.digits / 10, d.power + 1⟩ else d

/-- The power of ten of the first digit of a positive ratio. -/
def leadingPower (numerator denominator : Nat) : Int :=
  if denominator ≤ numerator then (Binary64.decimalLength (numerator / denominator) : Int) - 1
  else -(Binary64.decimalLength ((denominator - 1) / numerator) : Int)

/-- A number between the two bounds of its interval, all three over one denominator. -/
structure Interval where
  /-- The lower bound. -/
  low : Nat
  /-- The number itself. -/
  middle : Nat
  /-- The upper bound. -/
  high : Nat
  /-- What the three are divided by. -/
  denominator : Nat
  /-- Whether the bounds belong to the interval. -/
  closed : Bool

/-- The decimals that round to a finite number other than zero. The gap below a power of two is
half as wide as the one above, except at the smallest exponent; a bound rounds to the number
exactly when the significand is even. -/
def Interval.of (x : Binary64) : Interval :=
  let m := x.significand
  let narrow := x.fractionField = 0 ∧ 1 < x.exponentField
  let q := x.exponent - 2
  let factor := 1 <<< q.toNat
  { low := (4 * m - if narrow then 1 else 2) * factor
    middle := 4 * m * factor
    high := (4 * m + 2) * factor
    denominator := 1 <<< (-q).toNat
    closed := m % 2 == 0 }

/-- The interval with every bound divided by `10 ^ power`. -/
def Interval.onGrid (i : Interval) (power : Int) : Interval :=
  let factor := Nat.pow 10 (-power).toNat
  { i with
    low := i.low * factor
    middle := i.middle * factor
    high := i.high * factor
    denominator := i.denominator * Nat.pow 10 power.toNat }

/-- Whether a whole number lies in the interval. -/
def Interval.contains (i : Interval) (n : Nat) : Bool :=
  let scaled := n * i.denominator
  if i.closed then i.low ≤ scaled && scaled ≤ i.high else i.low < scaled && scaled < i.high

/-- The whole number in the interval that is nearest to its middle, if one of the middle's two
neighbours lies in it. -/
def Interval.nearest? (tie : TieRule) (i : Interval) : Option Nat :=
  let below := i.middle / i.denominator
  let above := below + 1
  match i.contains below, i.contains above with
  | false, false => none
  | true, false => some below
  | false, true => some above
  | true, true =>
    let twice := 2 * (i.middle % i.denominator)
    if twice < i.denominator then some below
    else if i.denominator < twice then some above
    else match tie with
      | .away => some above
      | .even => some (if below % 2 == 0 then below else above)

/-- Searches the grids from `power` downwards, at most `fuel` finer ones. -/
def search (tie : TieRule) (i : Interval) : Nat → Int → Decimal
  | 0, power => ⟨(i.onGrid power).middle / (i.onGrid power).denominator, power⟩
  | fuel + 1, power =>
    match (i.onGrid power).nearest? tie with
    | some digits => ⟨digits, power⟩
    | none => search tie i fuel (power - 1)

/-- The decimal with the fewest digits that rounds to a finite number other than zero; seventeen
digits always suffice. -/
def shortest (tie : TieRule) (x : Binary64) : Decimal :=
  let i := Interval.of x
  strip 17 (search tie i 17 (leadingPower i.middle i.denominator))

end Decimal

end Reckoner
