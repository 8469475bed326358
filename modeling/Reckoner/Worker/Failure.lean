import Reckoner.Task

/-!
# Failures of a computation itself

A computation that ends without an answer stops the whole pool.
-/

namespace Reckoner

/-- How a computation can end without an answer. -/
inductive PoolFailure where
  | panicked (taskId : TaskId) (text : String)
  | aborted (taskId : TaskId) (text : String)
deriving DecidableEq, Repr

/-- The sentence of a failure. -/
def PoolFailure.message : PoolFailure → String
  | panicked taskId text => "computation of task " ++ toString taskId ++ " panicked: " ++ text
  | aborted taskId text => "computation of task " ++ toString taskId ++ " was aborted: " ++ text

end Reckoner
