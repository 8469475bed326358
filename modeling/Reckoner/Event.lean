import Reckoner.Task

/-!
# Log events

What the scheduler, the service and the workers write to the log, with the level, the sentence
and the fields of each event. Events below the level of information are not kept.
-/

namespace Reckoner

/-- How much an event matters. -/
inductive Level where
  | info
  | warn
deriving DecidableEq, Repr

/-- The name of a level in the log. -/
def Level.name : Level → String
  | info => "INFO"
  | warn => "WARN"

/-- Something worth a line in the log. -/
inductive Event where
  /-- A formula was accepted. -/
  | expressionSubmitted (expressionId : ExpressionId)
  /-- A report names a task that is not stored. -/
  | unknownTask (taskId : TaskId) (expressionId : ExpressionId)
  /-- A report names a task of an expression that is finished or not stored. -/
  | finishedExpression (taskId : TaskId) (expressionId : ExpressionId)
  /-- A report names a task that nobody works on. -/
  | unclaimedTask (taskId : TaskId) (expressionId : ExpressionId)
  | expressionFailed (taskId : TaskId) (expressionId : ExpressionId) (error : String)
  | expressionCompleted (expressionId : ExpressionId)
  /-- Giving up a claim could not be undone in the store. -/
  | claimRollbackFailed (error : String)
  /-- Giving up a report could not be undone in the store. -/
  | reportRollbackFailed (error : String)
  | workerStarted (worker : Nat)
  | workerStopped (worker : Nat)
  | fetchFailed (worker : Nat) (error : String)
  /-- A worker found nothing to do after it last had something to do. -/
  | noTasks (worker : Nat)
  | submitFailed (worker : Nat) (taskId : TaskId) (error : String)
  /-- A pool without workers was started. -/
  | noWorkers
  | agentStarted
  | agentStopped
deriving DecidableEq, Repr

namespace Event

/-- The level of an event. -/
def level : Event → Level
  | expressionSubmitted _ | expressionFailed .. | expressionCompleted _ | workerStarted _
  | workerStopped _ | noTasks _ | agentStarted | agentStopped => .info
  | _ => .warn

/-- The sentence of an event. -/
def message : Event → String
  | expressionSubmitted _ => "expression submitted"
  | unknownTask .. => "discarding report for unknown task"
  | finishedExpression .. => "discarding report for finished expression"
  | unclaimedTask .. => "discarding report for unclaimed task"
  | expressionFailed .. => "expression failed"
  | expressionCompleted _ => "expression completed"
  | claimRollbackFailed _ => "rollback after failed claim failed"
  | reportRollbackFailed _ => "rollback after failed report failed"
  | workerStarted _ => "worker started"
  | workerStopped _ => "worker stopped"
  | fetchFailed .. => "failed to fetch task"
  | noTasks _ => "no tasks available, waiting"
  | submitFailed .. => "failed to submit result"
  | noWorkers => "computing power is 0, no workers started"
  | agentStarted => "agent started"
  | agentStopped => "agent stopped"

/-- The fields of an event, by name. -/
def fields : Event → List (String × String)
  | expressionSubmitted e | expressionCompleted e => [("expression_id", toString e)]
  | unknownTask t e | finishedExpression t e | unclaimedTask t e =>
    [("task_id", toString t), ("expression_id", toString e)]
  | expressionFailed t e error =>
    [("task_id", toString t), ("expression_id", toString e), ("error", error)]
  | claimRollbackFailed error | reportRollbackFailed error => [("error", error)]
  | workerStarted w | workerStopped w | noTasks w => [("worker", toString w)]
  | fetchFailed w error => [("worker", toString w), ("error", error)]
  | submitFailed w t error =>
    [("worker", toString w), ("task_id", toString t), ("error", error)]
  | noWorkers | agentStarted | agentStopped => []

end Event

end Reckoner
