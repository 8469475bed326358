import Reckoner.Expression
import Reckoner.Store.Error

/-!
# What is asked of the store

The scheduler works on the store through a transaction: it opens one, puts queries to it, and
closes it by a commit or a rollback. Every request has a type of answers; the store may instead
answer any of them by an error.
-/

namespace Reckoner

/-- A read or a write within an open transaction. -/
inductive Query where
  /-- The pending tasks, the smallest number first. -/
  | pendingTasks
  | getTask (id : TaskId)
  /-- The tasks of an expression, in the order of their evaluation. -/
  | expressionTasks (id : ExpressionId)
  /-- Fills the operand slot with a given number. -/
  | resolveOperand (id : TaskId) (slot : Nat) (value : Binary64)
  | setTaskStatus (id : TaskId) (status : TaskStatus)
  | completeTask (id : TaskId) (result : Binary64)
  | deleteExpressionTasks (id : ExpressionId)
  | expressionStatus (id : ExpressionId)
  /-- Makes a pending expression a processing one, and leaves others as they are. -/
  | markExpressionProcessing (id : ExpressionId)
  | completeExpression (id : ExpressionId) (result : Binary64)
  | failExpression (id : ExpressionId) (error : String)

/-- What a query is answered by. -/
def Query.Answer : Query → Type
  | pendingTasks => List Task
  | getTask _ => Option Task
  | expressionTasks _ => List Task
  | expressionStatus _ => Option ExpressionStatus
  | _ => Unit

/-- Anything that is asked of the store. -/
inductive Request where
  /-- Opens a transaction. -/
  | begin
  /-- Closes the transaction and keeps its writes. -/
  | commit
  /-- Closes the transaction and drops its writes. -/
  | rollback
  | query (q : Query)

/-- What a request is answered by. -/
def Request.Answer : Request → Type
  | query q => q.Answer
  | _ => Unit

/-- The kinds of requests. -/
inductive Method where
  | begin
  | commit
  | rollback
  | pendingTasks
  | getTask
  | expressionTasks
  | resolveOperand
  | setTaskStatus
  | completeTask
  | deleteExpressionTasks
  | expressionStatus
  | markExpressionProcessing
  | completeExpression
  | failExpression
deriving DecidableEq, Repr

namespace Method

/-- All kinds of requests. -/
def all : List Method :=
  [begin, commit, rollback, pendingTasks, getTask, expressionTasks, resolveOperand, setTaskStatus,
    completeTask, deleteExpressionTasks, expressionStatus, markExpressionProcessing,
    completeExpression, failExpression]

/-- The name of a kind of request. -/
def name : Method → String
  | begin => "begin"
  | commit => "commit"
  | rollback => "rollback"
  | pendingTasks => "pending_tasks"
  | getTask => "get_task"
  | expressionTasks => "expression_tasks"
  | resolveOperand => "resolve_operand"
  | setTaskStatus => "set_task_status"
  | completeTask => "complete_task"
  | deleteExpressionTasks => "delete_expression_tasks"
  | expressionStatus => "expression_status"
  | markExpressionProcessing => "mark_expression_processing"
  | completeExpression => "complete_expression"
  | failExpression => "fail_expression"

/-- The kind of request with this name. -/
def ofName? (text : String) : Option Method := all.find? (·.name == text)

end Method

/-- The kind of a query. -/
def Query.method : Query → Method
  | pendingTasks => .pendingTasks
  | getTask _ => .getTask
  | expressionTasks _ => .expressionTasks
  | resolveOperand .. => .resolveOperand
  | setTaskStatus .. => .setTaskStatus
  | completeTask .. => .completeTask
  | deleteExpressionTasks _ => .deleteExpressionTasks
  | expressionStatus _ => .expressionStatus
  | markExpressionProcessing _ => .markExpressionProcessing
  | completeExpression .. => .completeExpression
  | failExpression .. => .failExpression

/-- The kind of a request. -/
def Request.method : Request → Method
  | begin => .begin
  | commit => .commit
  | rollback => .rollback
  | query q => q.method

end Reckoner
