import Reckoner.Message
import Reckoner.Store.Call

/-!
# The scheduler

Each call is one transaction: either all of its writes are kept or none. `readTask` claims the
first pending task whose operands are all known, copying results of completed tasks into operand
slots on its way; when it claims nothing, nothing is kept. `completeTask` takes a worker's report:
a failure fails the expression and drops its tasks, and the last result of an expression becomes
its value.
-/

namespace Reckoner.Scheduler

/-- A part of a scheduler call that an error ends. -/
abbrev Action (α : Type) : Type := ExceptT SchedulerError Call α

/-- Puts a query to the open transaction. -/
def ask (q : Query) : Action q.Answer :=
  Call.ask (.query q) fun
    | .ok answer => .done (.ok answer)
    | .error e => .done (.error (.storage e))

/-- Writes an event to the log. -/
def log (event : Event) : Action Unit := Call.note event (.done (.ok ()))

/-- What becomes of the transaction of a call that was not given up. -/
inductive Verdict (α : Type) where
  /-- Its writes are kept. -/
  | keep (value : α)
  /-- Its writes are dropped. -/
  | discard (value : α)

/-- Closes the transaction by `request` and answers `value`, unless that fails. -/
def close {α : Type} (request : Request) (value : α) : Call (Except SchedulerError α) :=
  .ask request fun
    | .ok _ => .done (.ok value)
    | .error e => .done (.error (.storage e))

/-- Runs an action as a transaction. An action that is given up is undone; if even that fails, an
event tells of it and the first error stands. -/
def transact {α : Type} (undoFailed : String → Event) (action : Action (Verdict α)) :
    Call (Except SchedulerError α) :=
  .ask .begin fun
    | .error e => .done (.error (.storage e))
    | .ok _ => Call.bind action fun
      | .ok (.keep value) => close .commit value
      | .ok (.discard value) => close .rollback value
      | .error e => .ask .rollback fun
        | .ok _ => .done (.error e)
        | .error undo => .note (undoFailed undo.message) (.done (.error e))

/-- Fills the empty ones of these slots of a task from its completed dependencies. The answer is
the task with its operands, or nothing if a dependency is not completed yet. -/
def fillSlots (task : Task) : List Slot → Action (Option Task)
  | [] => pure (some task)
  | slot :: rest =>
    match task.args.get slot with
    | some _ => fillSlots task rest
    | none =>
      match task.dependencies.get slot with
      | none => throw (.unresolvableOperand task.id slot.number)
      | some id => do
        match ← ask (.getTask id) with
        | none => throw (.storage .notFound)
        | some dependency =>
          if dependency.status ≠ .completed then pure none
          else
            match dependency.result with
            | none => throw (.unresolvableOperand task.id slot.number)
            | some value => do
              ask (.resolveOperand task.id slot.number value)
              fillSlots { task with args := task.args.set slot (some value) } rest

/-- Claims the first of these tasks whose operands are all known. -/
def claimFirst : List Task → Action (Option Task)
  | [] => pure none
  | task :: rest => do
    match ← fillSlots task task.operation.slots with
    | none => claimFirst rest
    | some filled => do
      ask (.setTaskStatus filled.id .processing)
      ask (.markExpressionProcessing filled.expressionId)
      pure (some { filled with status := .processing })

/-- Claims a task, if one is ready. -/
def readTask : Call (Except SchedulerError (Option Task)) :=
  transact .claimRollbackFailed do
    match ← claimFirst (← ask .pendingTasks) with
    | some task => pure (.keep (some task))
    | none => pure (.discard none)

/-- Applies a report to the task that it names, once the task is known to await one. -/
def applyReport (task : Task) (report : Report) : Action Unit :=
  match report.failureReason? with
  | some error => do
    ask (.failExpression task.expressionId error)
    ask (.deleteExpressionTasks task.expressionId)
    log (.expressionFailed task.id task.expressionId error)
  | none => do
    ask (.completeTask task.id report.result)
    let tasks ← ask (.expressionTasks task.expressionId)
    if tasks.all (·.status == .completed) then do
      ask (.completeExpression task.expressionId report.result)
      ask (.deleteExpressionTasks task.expressionId)
      log (.expressionCompleted task.expressionId)

/-- Takes a report. One that names no claimed task of an unfinished expression is discarded. -/
def completeTask (report : Report) : Call (Except SchedulerError Unit) :=
  transact .reportRollbackFailed do
    match ← ask (.getTask report.id) with
    | none => do
      log (.unknownTask report.id report.expressionId)
      pure (.discard ())
    | some task => do
      let status ← ask (.expressionStatus task.expressionId)
      if status.all (·.isTerminal) then do
        log (.finishedExpression task.id task.expressionId)
        pure (.discard ())
      else if task.status ≠ .processing then do
        log (.unclaimedTask task.id task.expressionId)
        pure (.discard ())
      else do
        applyReport task report
        pure (.keep ())

/-- One claimed task and the report made of it. -/
structure Round where
  /-- The task as it was claimed. -/
  task : Task
  /-- What was reported. -/
  report : Report

/-- Claims, computes and reports tasks one after the other, at most `fuel` of them, until none is
ready or a call fails; the error that ended the work is kept with the rounds before it. -/
def work (arith : Arithmetic) : Nat → Call (List Round × Option SchedulerError)
  | 0 => pure ([], none)
  | fuel + 1 => do
    match ← readTask with
    | .error e => pure ([], some e)
    | .ok none => pure ([], none)
    | .ok (some task) => do
      let report := Report.ofAssignment arith (Assignment.ofTask task)
      match ← completeTask report with
      | .error e => pure ([⟨task, report⟩], some e)
      | .ok _ => do
        let (rounds, stopped) ← work arith fuel
        pure (⟨task, report⟩ :: rounds, stopped)

end Reckoner.Scheduler
