import Std.Async.Select
import Std.Async.Signal

/-!
# The end of a role

The roles run until the program is interrupted or told to terminate.
-/

namespace Reckoner

open Std.Async

/-- Waits until the program is to end. -/
def waitForShutdown : Async Unit := do
  let interrupt ← Signal.Waiter.mk .sigint false
  let terminate ← Signal.Waiter.mk .sigterm false
  Selectable.one #[.case interrupt.selector pure, .case terminate.selector pure]

end Reckoner
