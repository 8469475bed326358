import Reckoner.Calculation
import Reckoner.Task

/-!
# What the scheduler and its workers tell each other

An assignment hands a task to a worker; its operation travels as a symbol, so that a worker that
does not know it can report the task as failed. A report brings back a result or an error. The
assignment with number zero means that there is nothing to do.
-/

namespace Reckoner

/-- A task for a worker. -/
structure Assignment where
  /-- The task's number; zero when there is no task. -/
  id : TaskId
  /-- The operands. -/
  args : Operands (Option Binary64)
  /-- The symbol of the operation. -/
  operation : String
  /-- The expression of the task. -/
  expressionId : ExpressionId
  /-- Always empty in what the scheduler sends. -/
  error : String
deriving DecidableEq, Repr

namespace Assignment

/-- There is no task. -/
def none : Assignment := ⟨0, Operands.empty, "", 0, ""⟩

/-- Whether the assignment says that there is no task. -/
def isNone (a : Assignment) : Bool := a.id == 0

/-- The assignment of a task. -/
def ofTask (task : Task) : Assignment :=
  ⟨task.id, task.args, task.operation.symbol, task.expressionId, ""⟩

end Assignment

/-- What a worker says about a task. -/
structure Report where
  /-- The task's number. -/
  id : TaskId
  /-- The expression of the task. -/
  expressionId : ExpressionId
  /-- The result; zero in a failure. -/
  result : Binary64
  /-- Why there is no result; empty if there is one. -/
  error : String
deriving DecidableEq, Repr

namespace Report

/-- The report of a result. -/
def success (id : TaskId) (expressionId : ExpressionId) (result : Binary64) : Report :=
  ⟨id, expressionId, result, ""⟩

/-- The report of an error. -/
def failure (id : TaskId) (expressionId : ExpressionId) (error : String) : Report :=
  ⟨id, expressionId, Binary64.zero, error⟩

/-- The report of a result, or of a failure if the result is not finite. -/
def ofValue (id : TaskId) (expressionId : ExpressionId) (result : Binary64) : Report :=
  match nonFiniteError result with
  | some error => failure id expressionId error
  | none => success id expressionId result

/-- Whether the report brings an error. -/
def isFailure (report : Report) : Bool := report.error != ""

/-- Why applying the report fails the expression, if it does: its own error, or else a result that
is not finite. -/
def failureReason? (report : Report) : Option String :=
  if report.isFailure then some report.error else nonFiniteError report.result

/-- The report that an honest worker makes of an assignment. -/
def ofAssignment (arith : Arithmetic) (a : Assignment) : Report :=
  match calculate arith a.operation a.args with
  | .ok value => ofValue a.id a.expressionId value
  | .error e => failure a.id a.expressionId e.message

end Report

end Reckoner
