import Reckoner.Formula.Graph
import Reckoner.Store.Call

/-!
# Stores

A store says how its data answers queries and how expressions are created and looked up. An error
leaves the data as it was. A transaction works on a copy of the data: a commit puts the copy in
the place of the data, a rollback forgets it.
-/

namespace Reckoner

/-- The tasks of a graph whose first `ids.size` nodes have the numbers `ids`; the others are
numbered from `last + 1` on. -/
def Task.ofNodes (expressionId : ExpressionId) (ids : Array TaskId) (last : TaskId) :
    List Node → List Task
  | [] => []
  | node :: rest =>
    { id := last + 1
      expressionId
      operation := node.operation
      args := node.args
      dependencies := node.dependencies.map fun position => position.bind fun i => ids[i]?
      status := .pending
      result := none } :: ofNodes expressionId (ids.push (last + 1)) (last + 1) rest

/-- The tasks of a new expression; `last` is the largest number given to a task so far. -/
def Task.ofGraph (expressionId : ExpressionId) (last : TaskId) (graph : TaskGraph) : List Task :=
  ofNodes expressionId #[] last graph.nodes

/-- How data of type `δ` serves as a store. -/
structure Store (δ : Type) where
  /-- Whether a transaction can be opened. -/
  admits : δ → Except StoreError Unit
  /-- Answers a query at a given time. -/
  answer : Instant → (q : Query) → δ → Except StoreError (q.Answer × δ)
  /-- Stores a new expression with its tasks. -/
  create : Instant → UserId → String → TaskGraph → δ → Except StoreError (Expression × δ)
  /-- The expression with this number, if it is this user's. -/
  find : ExpressionId → UserId → δ → Except StoreError (Option Expression)
  /-- The expressions of a user, the newest first. -/
  listByUser : UserId → δ → Except StoreError (List Expression)
  /-- The tasks of an expression, in the order of their evaluation. -/
  listTasks : ExpressionId → δ → Except StoreError (List Task)

/-- The data of a store, and the copy on which the open transaction works. -/
structure Transacted (δ : Type) where
  /-- What everybody else sees. -/
  committed : δ
  /-- What the open transaction sees; of no meaning while none is open. -/
  working : δ

namespace Transacted

variable {δ : Type}

/-- Data without an open transaction. -/
def of (data : δ) : Transacted δ := ⟨data, data⟩

end Transacted

/-- Meets requests by a store. -/
def Store.handle {δ : Type} (store : Store δ) (now : Instant) : Handler (Transacted δ)
  | .begin, state =>
    match store.admits state.committed with
    | .ok _ => (.ok (), { state with working := state.committed })
    | .error e => (.error e, state)
  | .commit, state => (.ok (), { state with committed := state.working })
  | .rollback, state => (.ok (), { state with working := state.committed })
  | .query q, state =>
    match store.answer now q state.working with
    | .ok (answer, working) => (.ok answer, { state with working })
    | .error e => (.error e, state)

end Reckoner
