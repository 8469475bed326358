/-!
# Binary64 numbers as bit patterns

A number is its 64-bit word: one sign bit, eleven exponent bits, fifty-two fraction bits.
Two numbers are equal when their words are, so signed zeros and the payloads of NaNs are told
apart. The class of a number (NaN, infinite, finite, zero) is read off its fields.
-/

namespace Reckoner

/-- A binary64 number, given by its word. -/
structure Binary64 where
  /-- Sign, exponent and fraction, most significant bit first. -/
  bits : UInt64
deriving DecidableEq, Inhabited, Repr

namespace Binary64

/-- The word with only the sign bit set. -/
def signBit : UInt64 := 0x8000000000000000

/-- The bit above the fraction: the leading one of a normal number, which is not stored. -/
def hiddenBit : Nat := 0x10000000000000

/-- Whether the sign bit is set; true of negative zero and of negative NaNs too. -/
def isNegative (x : Binary64) : Bool := decide (0x8000000000000000 ≤ x.bits.toNat)

/-- The biased exponent, between 0 and 2047. -/
def exponentField (x : Binary64) : Nat := x.bits.toNat / hiddenBit % 2048

/-- The fraction bits, without the hidden leading one. -/
def fractionField (x : Binary64) : Nat := x.bits.toNat % hiddenBit

/-- Neither infinite nor NaN. -/
def isFinite (x : Binary64) : Bool := x.exponentField != 2047

/-- Not a number, whatever the payload and the sign. -/
def isNaN (x : Binary64) : Bool := x.exponentField == 2047 && x.fractionField != 0

/-- One of the two infinities. -/
def isInfinite (x : Binary64) : Bool := x.exponentField == 2047 && x.fractionField == 0

/-- One of the two zeros. -/
def isZero (x : Binary64) : Bool := x.exponentField == 0 && x.fractionField == 0

/-- Positive zero. -/
def zero : Binary64 := ⟨0⟩

/-- One. -/
def one : Binary64 := ⟨0x3ff0000000000000⟩

/-- Positive infinity. -/
def infinity : Binary64 := ⟨0x7ff0000000000000⟩

/-- The quiet NaN with the smallest payload. -/
def nan : Binary64 := ⟨0x7ff8000000000000⟩

/-- The number with the other sign; the rest of the word is kept. -/
def negate (x : Binary64) : Binary64 := ⟨x.bits ^^^ signBit⟩

/-- The number with the given sign whose other bits, as a natural number, are `magnitude`. -/
def ofMagnitude (negative : Bool) (magnitude : Nat) : Binary64 :=
  let x : Binary64 := ⟨magnitude.toUInt64⟩
  if negative then x.negate else x

/-- The integer significand `m` of a finite number `± m · 2 ^ (exponent x)`. -/
def significand (x : Binary64) : Nat :=
  if x.exponentField = 0 then x.fractionField else hiddenBit + x.fractionField

/-- The power of two that goes with `significand`. -/
def exponent (x : Binary64) : Int :=
  if x.exponentField = 0 then -1074 else (x.exponentField : Int) - 1075

/-- The largest magnitude below infinity, plus one: the word of infinity. -/
def infinityMagnitude : Nat := 2047 * hiddenBit

/-- `numerator / denominator`, rounded to the nearest integer, a half to the even neighbour. -/
def roundQuotient (numerator denominator : Nat) : Nat :=
  let quotient := numerator / denominator
  let twice := 2 * (numerator % denominator)
  if twice > denominator || (twice == denominator && quotient % 2 == 1) then quotient + 1
  else quotient

/-- The power of two by which a positive ratio is divided so that its quotient has 53 bits, or
fewer where the number is subnormal. -/
def scale (numerator denominator : Nat) : Int :=
  let guess : Int := (numerator.log2 : Int) - (denominator.log2 : Int) - 52
  let large : Bool :=
    if 0 ≤ guess then decide ((denominator <<< guess.toNat) * hiddenBit ≤ numerator)
    else decide (denominator * hiddenBit ≤ numerator <<< (-guess).toNat)
  max (if large then guess else guess - 1) (-1074)

/-- The binary64 number nearest to a ratio, a half to the even word; too large a ratio becomes
infinite. The word of a rounded `m · 2 ^ q` is `(q + 1074) · 2 ^ 52 + m`: the hidden bit of a
normal number carries into the exponent field. -/
def ofRatio (negative : Bool) (numerator denominator : Nat) : Binary64 :=
  if numerator = 0 then ofMagnitude negative 0
  else
    let q := scale numerator denominator
    let m :=
      if 0 ≤ q then roundQuotient numerator (denominator <<< q.toNat)
      else roundQuotient (numerator <<< (-q).toNat) denominator
    ofMagnitude negative (min ((q + 1074).toNat * hiddenBit + m) infinityMagnitude)

/-- The number of decimal digits of `n`; zero has none. -/
def decimalLength (n : Nat) : Nat := if n = 0 then 0 else (Nat.toDigits 10 n).length

/-- The binary64 number nearest to `digits · 10 ^ power`. A value from `10 ^ 309` up is infinite and
one below `10 ^ (-324)` is zero, whatever the power, so large powers of ten are never computed. -/
def ofDecimal (negative : Bool) (digits : Nat) (power : Int) : Binary64 :=
  let top : Int := decimalLength digits + power
  if digits = 0 ∨ top ≤ -324 then ofMagnitude negative 0
  else if 310 ≤ top then ofMagnitude negative infinityMagnitude
  else if 0 ≤ power then ofRatio negative (digits * Nat.pow 10 power.toNat) 1
  else ofRatio negative digits (Nat.pow 10 (-power).toNat)

/-- The binary64 number nearest to an integer. -/
def ofInt (n : Int) : Binary64 := ofRatio (decide (n < 0)) n.natAbs 1

/-- The binary64 number with the value of a binary32 word. A NaN keeps its payload in the high
fraction bits and is made quiet. -/
def ofBinary32 (word : UInt32) : Binary64 :=
  let n := word.toNat
  let negative := decide (0x80000000 ≤ n)
  let exponentBits := n / 0x800000 % 256
  let fraction := n % 0x800000
  if exponentBits = 255 then
    if fraction = 0 then ofMagnitude negative infinityMagnitude
    else ofMagnitude negative (infinityMagnitude + (fraction % 0x400000 + 0x400000) * 0x20000000)
  else if exponentBits = 0 then ofRatio negative fraction (1 <<< 149)
  else ofMagnitude negative ((exponentBits + 896) * hiddenBit + fraction * 0x20000000)

end Binary64

end Reckoner
