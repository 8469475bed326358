import Reckoner.Store.Call

/-!
# Faults of the store

A fault makes the store answer one request of a kind by an error instead of doing anything; a
commit that fails so loses its transaction. Every fault counts the requests of its kind, and a
request meets the first fault that is due.
-/

namespace Reckoner

/-- An error to come. -/
structure Fault where
  /-- The kind of request that will fail. -/
  method : Method
  /-- What it will be answered by. -/
  error : StoreError
  /-- How many requests of the kind are still to come, the failing one included. -/
  remaining : Nat

namespace Fault

/-- The error that a request of this kind meets, and the faults left behind. Faults behind the one
that is due do not count the request. -/
def strike (method : Method) : List Fault → Option StoreError × List Fault
  | [] => (none, [])
  | fault :: rest =>
    if fault.method = method then
      if fault.remaining ≤ 1 then (some fault.error, rest)
      else
        let (error, left) := strike method rest
        (error, { fault with remaining := fault.remaining - 1 } :: left)
    else
      let (error, left) := strike method rest
      (error, fault :: left)

end Fault

/-- A state with faults to come. -/
structure Faulty (σ : Type) where
  /-- The state itself. -/
  state : σ
  /-- The faults, in the order in which they were set up. -/
  faults : List Fault

/-- Meets a request by a fault that is due, and otherwise as `handle` does. -/
def Handler.withFaults {σ : Type} (handle : Handler σ) : Handler (Faulty σ) := fun request s =>
  match Fault.strike request.method s.faults with
  | (some error, faults) => (.error error, { s with faults })
  | (none, faults) =>
    let (answer, state) := handle request s.state
    (answer, ⟨state, faults⟩)

end Reckoner
