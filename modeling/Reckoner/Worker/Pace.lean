import Reckoner.Operation

/-!
# The pace of a worker

How long a worker waits between two calls, and how long each operation takes at least. All times
are in milliseconds.
-/

namespace Reckoner

/-- The least time that each operation takes. -/
structure Floors where
  addition : Nat
  subtraction : Nat
  multiplication : Nat
  division : Nat
  power : Nat
  negation : Nat
deriving DecidableEq, Repr

namespace Floors

/-- The same least time for every operation. -/
def uniform (ms : Nat) : Floors := ⟨ms, ms, ms, ms, ms, ms⟩

/-- The least time of an operation. -/
def of (floors : Floors) : Operation → Nat
  | .add => floors.addition
  | .subtract => floors.subtraction
  | .multiply => floors.multiplication
  | .divide => floors.division
  | .power => floors.power
  | .negate => floors.negation

/-- The least time of the operation with this symbol; a text that is no symbol takes none. -/
def ofSymbol (floors : Floors) (symbol : String) : Nat :=
  ((Operation.ofSymbol? symbol).map floors.of).getD 0

end Floors

/-- When a worker acts. -/
structure Pace where
  /-- The wait after an empty answer. -/
  poll : Nat
  /-- The wait after a failed call. -/
  backoff : Nat
  /-- The least time of each operation. -/
  floors : Floors
deriving DecidableEq, Repr

end Reckoner
