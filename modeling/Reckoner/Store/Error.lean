import Reckoner.Formula.Error
import Reckoner.Task

/-!
# What can go wrong behind the service and the scheduler

Errors of the store, of a scheduler call and of the service. Each wraps the one below it and has a
sentence; `cause?` is the sentence of what it wraps.
-/

namespace Reckoner

/-- Why the store did not do what it was asked. -/
inductive StoreError where
  /-- No transaction could be opened. -/
  | connection
  /-- A statement was refused or its rows could not be read. -/
  | query (text : String)
  | notFound
  /-- A row exists already, or one that it needs does not. -/
  | conflict (text : String)
deriving DecidableEq, Repr

/-- The sentence of a store error. -/
def StoreError.message : StoreError → String
  | connection => "database connection error"
  | query text => "query error: " ++ text
  | notFound => "entity not found"
  | conflict text => "conflict: " ++ text

/-- Why a scheduler call was given up. -/
inductive SchedulerError where
  | storage (error : StoreError)
  /-- A task lacks an operand, and no other task will bring it. -/
  | unresolvableOperand (taskId : TaskId) (slot : Nat)
deriving DecidableEq, Repr

namespace SchedulerError

/-- The sentence of a scheduler error. -/
def message : SchedulerError → String
  | storage error => "storage error: " ++ error.message
  | unresolvableOperand taskId slot =>
    "task " ++ toString taskId ++ " has no value and no dependency for operand " ++ toString slot

/-- The sentence of the error behind this one. -/
def cause? : SchedulerError → Option String
  | storage error => some error.message
  | unresolvableOperand .. => none

end SchedulerError

/-- Why the service did not do what a user asked. -/
inductive ExpressionError where
  | invalid (error : Formula.Error)
  /-- There is no such expression, or it is somebody else's. -/
  | notFound
  /-- The store failed; only the sentence is kept. -/
  | storage (text : String)
deriving DecidableEq, Repr

namespace ExpressionError

/-- The error of the service when the store fails. -/
def ofStore (error : StoreError) : ExpressionError := storage error.message

/-- The sentence of a service error. -/
def message : ExpressionError → String
  | invalid error => "invalid expression: " ++ error.message
  | notFound => "expression not found"
  | storage text => "storage error: " ++ text

/-- The sentence of the error behind this one. -/
def cause? : ExpressionError → Option String
  | invalid error => some error.message
  | _ => none

end ExpressionError

end Reckoner
