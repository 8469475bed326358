import Reckoner.Expression
import Reckoner.Store.Error

/-!
# Rows

Expressions, tasks, users and keys as they lie in their tables. Statuses, symbols and times are
texts there, and somebody else may have written them; a row is checked when it is read. A column
of numbers keeps no NaN and no sign of zero.
-/

namespace Reckoner

/-- What a column of numbers keeps of a number. -/
def Binary64.stored? (x : Binary64) : Option Binary64 :=
  if x.isNaN then none else if x.isZero then some zero else some x

/-- A user. -/
structure UserRow where
  id : UserId
  name : String
deriving DecidableEq, Repr

/-- A key, of which only the digest is kept. -/
structure KeyRow where
  /-- The digest of the key. -/
  digest : String
  /-- Whose key it is. -/
  userId : UserId
  /-- When it was last seen to be used. -/
  lastUsedAt : Option String
deriving DecidableEq, Repr

/-- An expression. -/
structure ExpressionRow where
  id : ExpressionId
  userId : UserId
  formula : String
  status : String
  result : Option Binary64
  error : String
  createdAt : String
  updatedAt : String
deriving DecidableEq, Repr

/-- A task. -/
structure TaskRow where
  id : TaskId
  expressionId : ExpressionId
  /-- The place of the task in the evaluation of its expression. -/
  position : Int
  operation : String
  args : Operands (Option Binary64)
  dependencies : Operands (Option TaskId)
  status : String
  result : Option Binary64
deriving DecidableEq, Repr

/-- The instant that a stored text denotes. -/
def Instant.ofStored (text : String) : Except StoreError Instant :=
  match ofRfc3339? text with
  | some t => .ok t
  | none => .error (.query "invalid datetime: not in the form of RFC 3339")

namespace ExpressionRow

/-- The row of an expression. -/
def ofExpression (e : Expression) : ExpressionRow :=
  { id := e.id
    userId := e.userId
    formula := e.formula
    status := e.status.text
    result := e.result.bind Binary64.stored?
    error := e.error
    createdAt := e.createdAt.stored
    updatedAt := e.updatedAt.stored }

/-- The expression in a row. -/
def read (row : ExpressionRow) : Except StoreError Expression := do
  let status ← (ExpressionStatus.ofText row.status).mapError .query
  let createdAt ← Instant.ofStored row.createdAt
  let updatedAt ← Instant.ofStored row.updatedAt
  return {
    id := row.id
    userId := row.userId
    formula := row.formula
    status
    result := row.result
    error := row.error
    createdAt
    updatedAt }

end ExpressionRow

namespace TaskRow

/-- The row of a task. -/
def ofTask (position : Nat) (t : Task) : TaskRow :=
  { id := t.id
    expressionId := t.expressionId
    position
    operation := t.operation.symbol
    args := t.args.map (·.bind Binary64.stored?)
    dependencies := t.dependencies
    status := t.status.text
    result := t.result.bind Binary64.stored? }

/-- The task in a row. -/
def read (row : TaskRow) : Except StoreError Task := do
  let operation ←
    match Operation.ofSymbol? row.operation with
    | some operation => .ok operation
    | none => .error (.query (Operation.unknownMessage row.operation))
  let status ← (TaskStatus.ofText row.status).mapError .query
  return {
    id := row.id
    expressionId := row.expressionId
    operation
    args := row.args
    dependencies := row.dependencies
    status
    result := row.result }

end TaskRow

end Reckoner
