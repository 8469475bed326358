import Reckoner.Number.Binary64

/-!
# The arithmetic behind an operation

What a worker computes with: five functions on binary64 numbers. Everything that schedules,
stores or reports numbers takes the arithmetic as a value, so nothing there depends on how two
numbers are added. `Arithmetic.ieee` is the arithmetic of the machine.
-/

namespace Reckoner

/-- An interpretation of the binary operations on binary64 numbers. -/
structure Arithmetic where
  /-- Sum. -/
  add : Binary64 → Binary64 → Binary64
  /-- Difference. -/
  subtract : Binary64 → Binary64 → Binary64
  /-- Product. -/
  multiply : Binary64 → Binary64 → Binary64
  /-- Quotient, asked only for a divisor that is not zero. -/
  divide : Binary64 → Binary64 → Binary64
  /-- Power. -/
  power : Binary64 → Binary64 → Binary64

/-- A function of two machine floats, as a function of two words. -/
def Binary64.lift (f : Float → Float → Float) (a b : Binary64) : Binary64 :=
  ⟨(f (Float.ofBits a.bits) (Float.ofBits b.bits)).toBits⟩

/-- The arithmetic of the machine: each result is rounded to the nearest number. -/
def Arithmetic.ieee : Arithmetic where
  add := Binary64.lift (· + ·)
  subtract := Binary64.lift (· - ·)
  multiply := Binary64.lift (· * ·)
  divide := Binary64.lift (· / ·)
  power := Binary64.lift Float.pow

end Reckoner
