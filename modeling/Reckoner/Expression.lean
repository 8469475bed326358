import Reckoner.Instant
import Reckoner.Task

/-!
# Expressions

An expression is a submitted formula with its owner and the state of its evaluation. It outlives
its tasks: once it is completed or has failed, it keeps the result or the error alone.
-/

namespace Reckoner

/-- How far an expression has come. -/
inductive ExpressionStatus where
  | pending
  | processing
  | completed
  | error
deriving DecidableEq, Inhabited, Repr

namespace ExpressionStatus

/-- All statuses. -/
def all : List ExpressionStatus := [pending, processing, completed, error]

/-- The text that stands for a status in the store and in listings. -/
def text : ExpressionStatus → String
  | pending => "pending"
  | processing => "processing"
  | completed => "completed"
  | error => "error"

/-- Whether the expression will not change any more. -/
def isTerminal : ExpressionStatus → Bool
  | completed | error => true
  | _ => false

/-- The status with exactly this text. -/
def ofExactText? (text : String) : Option ExpressionStatus := all.find? (·.text == text)

/-- The status that a text in any case stands for; otherwise what is said of it. -/
def ofText (text : String) : Except String ExpressionStatus :=
  match ofExactText? (Text.lower text) with
  | some status => .ok status
  | none => .error ("invalid expression status: '" ++ Text.lower text ++ "'")

end ExpressionStatus

/-- A submitted formula. -/
structure Expression where
  /-- The expression's number. -/
  id : ExpressionId
  /-- Its owner. -/
  userId : UserId
  /-- The formula as it was submitted. -/
  formula : String
  /-- How far it has come. -/
  status : ExpressionStatus
  /-- The value, once it is completed. -/
  result : Option Binary64
  /-- Why it failed; empty unless it did. -/
  error : String
  /-- When it was submitted. -/
  createdAt : Instant
  /-- When it last changed. -/
  updatedAt : Instant
deriving DecidableEq, Repr

end Reckoner
