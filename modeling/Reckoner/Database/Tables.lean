import Reckoner.Database.Row
import Reckoner.Store.Basic

/-!
# Tables

The rows of the database, each table in the order of its numbers. Numbers are given out one by one
and never again. References between tasks are counted when tasks are removed.
-/

namespace Reckoner

/-- The rows of a database. -/
structure Tables where
  users : List UserRow
  keys : List KeyRow
  expressions : List ExpressionRow
  tasks : List TaskRow
  /-- The largest number given to a user. -/
  lastUser : UserId
  /-- The largest number given to an expression. -/
  lastExpression : ExpressionId
  /-- The largest number given to a task. -/
  lastTask : TaskId
deriving DecidableEq, Repr

namespace Tables

/-- No rows, nothing numbered. -/
def empty : Tables := ⟨[], [], [], [], 0, 0, 0⟩

/-! ## Rows by number -/

/-- The expression with this number. -/
def expression? (t : Tables) (id : ExpressionId) : Option ExpressionRow :=
  t.expressions.find? (·.id == id)

/-- The task with this number. -/
def task? (t : Tables) (id : TaskId) : Option TaskRow := t.tasks.find? (·.id == id)

/-- The tasks of an expression by position. -/
def tasksOf (t : Tables) (id : ExpressionId) : List TaskRow :=
  (t.tasks.filter (·.expressionId == id)).mergeSort fun a b => a.position ≤ b.position

/-- Changes the task with this number; how many rows that are comes with the tables. -/
def reviseTask (t : Tables) (id : TaskId) (f : TaskRow → TaskRow) : Nat × Tables :=
  (t.tasks.countP (·.id == id),
    { t with tasks := t.tasks.map fun row => if row.id = id then f row else row })

/-- Changes the expression with this number; how many rows that are comes with the tables. -/
def reviseExpression (t : Tables) (id : ExpressionId) (f : ExpressionRow → ExpressionRow) :
    Nat × Tables :=
  (t.expressions.countP (·.id == id),
    { t with expressions := t.expressions.map fun row => if row.id = id then f row else row })

/-- Changes the key with this digest; how many rows that are comes with the tables. -/
def reviseKey (t : Tables) (digest : String) (f : KeyRow → KeyRow) : Nat × Tables :=
  (t.keys.countP (·.digest == digest),
    { t with keys := t.keys.map fun row => if row.digest = digest then f row else row })

/-- Drops the task with this number, whatever refers to it. -/
def dropTask (t : Tables) (id : TaskId) : Nat × Tables :=
  (t.tasks.countP (·.id == id), { t with tasks := t.tasks.filter (·.id != id) })

/-- Drops the expression with this number, whatever refers to it. -/
def dropExpression (t : Tables) (id : ExpressionId) : Nat × Tables :=
  (t.expressions.countP (·.id == id),
    { t with expressions := t.expressions.filter (·.id != id) })

/-! ## Queries -/

/-- What a change of rows that must be there comes to. -/
def affected : Nat × Tables → Except StoreError (Unit × Tables)
  | (0, _) => .error .notFound
  | (_, t) => .ok ((), t)

/-- How many references of a task lead nowhere: to its expression, and to tasks it waits for. -/
def danglingFrom (t : Tables) (row : TaskRow) : Nat :=
  (if (t.expression? row.expressionId).isSome then 0 else 1) +
    row.dependencies.toList.countP fun id => id.any fun id => (t.task? id).isNone

/-- How many references of other tasks lead to this one. -/
def referencesTo (t : Tables) (id : TaskId) : Nat :=
  ((t.tasks.filter (·.id != id)).flatMap (·.dependencies.toList)).count (some id)

/-- Drops tasks one after the other and counts the references that are left without their task.
Each dropped task adds those that lead to it and takes away its own that lead nowhere, as long as
there are any to take away. -/
def dropCounting (unmet : Nat) (t : Tables) : List TaskRow → Nat × Tables
  | [] => (unmet, t)
  | row :: rest =>
    dropCounting (unmet - t.danglingFrom row + t.referencesTo row.id) (t.dropTask row.id).2 rest

/-- Removes the tasks of an expression, unless references without their task are counted. -/
def removeTasks (t : Tables) (id : ExpressionId) : Except StoreError (Unit × Tables) :=
  match dropCounting 0 t (t.tasks.filter (·.expressionId == id)) with
  | (0, left) => .ok ((), left)
  | _ => .error (.query "a task that is left depends on a removed one")

/-- Answers a query at a given time. -/
def answer (t : Tables) (now : Instant) : (q : Query) → Except StoreError (q.Answer × Tables)
  | .pendingTasks => do
    let tasks ← (t.tasks.filter (·.status == TaskStatus.pending.text)).mapM (·.read)
    return (tasks, t)
  | .getTask id => do
    let task ← (t.task? id).mapM (·.read)
    return (task, t)
  | .expressionTasks id => do
    let tasks ← (t.tasksOf id).mapM (·.read)
    return (tasks, t)
  | .resolveOperand id slot value =>
    match Slot.ofNumber? slot with
    | some slot =>
      affected (t.reviseTask id fun row => { row with args := row.args.set slot value.stored? })
    | none => .error (.query ("invalid operand slot " ++ toString slot))
  | .setTaskStatus id status =>
    affected (t.reviseTask id fun row => { row with status := status.text })
  | .completeTask id result =>
    affected (t.reviseTask id fun row =>
      { row with status := TaskStatus.completed.text, result := result.stored? })
  | .deleteExpressionTasks id => t.removeTasks id
  | .expressionStatus id => do
    let status ← (t.expression? id).mapM fun row =>
      (ExpressionStatus.ofText row.status).mapError .query
    return (status, t)
  | .markExpressionProcessing id =>
    let (_, after) := t.reviseExpression id fun row =>
      if row.status = ExpressionStatus.pending.text then
        { row with status := ExpressionStatus.processing.text, updatedAt := now.stored }
      else row
    .ok ((), after)
  | .completeExpression id result =>
    affected (t.reviseExpression id fun row =>
      { row with
        status := ExpressionStatus.completed.text
        result := result.stored?
        updatedAt := now.stored })
  | .failExpression id error =>
    affected (t.reviseExpression id fun row =>
      { row with status := ExpressionStatus.error.text, error, updatedAt := now.stored })

/-! ## Expressions -/

/-- Stores a new expression with its tasks; its user must be there. -/
def create (t : Tables) (now : Instant) (userId : UserId) (formula : String) (graph : TaskGraph) :
    Except StoreError (Expression × Tables) :=
  if t.users.any (·.id == userId) then
    let expression : Expression :=
      { id := t.lastExpression + 1
        userId
        formula
        status := .pending
        result := none
        error := ""
        createdAt := now
        updatedAt := now }
    let tasks := Task.ofGraph expression.id t.lastTask graph
    .ok (expression,
      { t with
        expressions := t.expressions ++ [ExpressionRow.ofExpression expression]
        tasks := t.tasks ++ tasks.mapIdx TaskRow.ofTask
        lastExpression := expression.id
        lastTask := t.lastTask + graph.size })
  else .error (.conflict ("user " ++ toString userId ++ " does not exist"))

/-- The expression with this number, if it is this user's. -/
def find (t : Tables) (id : ExpressionId) (userId : UserId) :
    Except StoreError (Option Expression) :=
  ((t.expression? id).filter (·.userId == userId)).mapM (·.read)

/-- The expressions of a user, the newest first. -/
def listByUser (t : Tables) (userId : UserId) : Except StoreError (List Expression) :=
  (t.expressions.reverse.filter (·.userId == userId)).mapM (·.read)

/-- The tasks of an expression, in the order of their evaluation. -/
def listTasks (t : Tables) (id : ExpressionId) : Except StoreError (List Task) :=
  (t.tasksOf id).mapM (·.read)

end Tables

end Reckoner
