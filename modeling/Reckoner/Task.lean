import Reckoner.Number.Binary64
import Reckoner.Operands
import Reckoner.Text.Lowercase

/-!
# Tasks

A task is one operation of a stored expression. An operand slot is filled from the start when the
operand is a literal; otherwise its dependency names the task whose result will fill it. A task is
pending until a worker claims it, and completed once its result is known.
-/

namespace Reckoner

/-- The number of a stored task. Tasks are numbered from one; zero stands for no task. -/
abbrev TaskId := Int

/-- The number of a stored expression. -/
abbrev ExpressionId := Int

/-- The number of the owner of an expression. -/
abbrev UserId := Int

/-- How far a task has come. -/
inductive TaskStatus where
  | pending
  | processing
  | completed
deriving DecidableEq, Inhabited, Repr

namespace TaskStatus

/-- All statuses, in the order in which a task takes them. -/
def all : List TaskStatus := [pending, processing, completed]

/-- The text that stands for a status in the store and in listings. -/
def text : TaskStatus → String
  | pending => "pending"
  | processing => "processing"
  | completed => "completed"

/-- The status with exactly this text. -/
def ofExactText? (text : String) : Option TaskStatus := all.find? (·.text == text)

/-- The status that a text in any case stands for; otherwise what is said of it. -/
def ofText (text : String) : Except String TaskStatus :=
  match ofExactText? (Text.lower text) with
  | some status => .ok status
  | none => .error ("invalid task status: '" ++ Text.lower text ++ "'")

end TaskStatus

/-- One operation of a stored expression. -/
structure Task where
  /-- The task's number. -/
  id : TaskId
  /-- The expression it belongs to. -/
  expressionId : ExpressionId
  /-- What is computed. -/
  operation : Operation
  /-- The operands that are known. -/
  args : Operands (Option Binary64)
  /-- The tasks whose results are the other operands. -/
  dependencies : Operands (Option TaskId)
  /-- How far the task has come. -/
  status : TaskStatus
  /-- The result, once there is one. -/
  result : Option Binary64
deriving DecidableEq, Repr

end Reckoner
