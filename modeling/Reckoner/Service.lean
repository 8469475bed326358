import Reckoner.Store.Basic

/-!
# The expression service

What a user can do: submit a formula and look at expressions and tasks of one's own. A formula
with an error never reaches the store. Somebody else's expression is not found.
-/

namespace Reckoner.Service

variable {δ : Type}

/-- Compiles a formula and stores it as an expression of a user. -/
def submit (store : Store δ) (now : Instant) (userId : UserId) (formula : String) (data : δ) :
    Reply (Except ExpressionError Expression) δ :=
  match Formula.compile formula with
  | .error e => ⟨.error (.invalid e), [], data⟩
  | .ok graph =>
    match store.create now userId formula graph data with
    | .error e => ⟨.error (.ofStore e), [], data⟩
    | .ok (expression, after) => ⟨.ok expression, [.expressionSubmitted expression.id], after⟩

/-- The expression with this number. -/
def get (store : Store δ) (userId : UserId) (id : ExpressionId) (data : δ) :
    Except ExpressionError Expression :=
  match store.find id userId data with
  | .error e => .error (.ofStore e)
  | .ok none => .error .notFound
  | .ok (some expression) => .ok expression

/-- All expressions of a user, the newest first. -/
def list (store : Store δ) (userId : UserId) (data : δ) :
    Except ExpressionError (List Expression) :=
  (store.listByUser userId data).mapError .ofStore

/-- The tasks of an expression, in the order of their evaluation; none once it is finished. -/
def tasks (store : Store δ) (userId : UserId) (id : ExpressionId) (data : δ) :
    Except ExpressionError (List Task) := do
  let expression ← get store userId id data
  (store.listTasks expression.id data).mapError .ofStore

end Reckoner.Service
