import Reckoner.Store.Basic

/-!
# The store in memory

Expressions and tasks are kept in the order of their numbers, which are given out one by one and
never again. Nothing here looks at the clock but the creation of an expression.
-/

namespace Reckoner

/-- Expressions and tasks in memory. -/
structure Memory where
  /-- The expressions, by number. -/
  expressions : List Expression
  /-- The tasks, by number. -/
  tasks : List Task
  /-- The largest number given to an expression. -/
  lastExpression : ExpressionId
  /-- The largest number given to a task. -/
  lastTask : TaskId
deriving DecidableEq, Repr

namespace Memory

/-- Nothing stored, nothing numbered. -/
def empty : Memory := ⟨[], [], 0, 0⟩

/-- The task with this number. -/
def task? (m : Memory) (id : TaskId) : Option Task := m.tasks.find? (·.id == id)

/-- The expression with this number. -/
def expression? (m : Memory) (id : ExpressionId) : Option Expression :=
  m.expressions.find? (·.id == id)

/-- The tasks of an expression. -/
def tasksOf (m : Memory) (id : ExpressionId) : List Task :=
  m.tasks.filter (·.expressionId == id)

/-- Changes the task with this number. -/
def updateTask (m : Memory) (id : TaskId) (f : Task → Task) : Except StoreError (Unit × Memory) :=
  if m.tasks.any (·.id == id) then
    .ok ((), { m with tasks := m.tasks.map fun t => if t.id = id then f t else t })
  else .error .notFound

/-- Changes the expression with this number. -/
def updateExpression (m : Memory) (id : ExpressionId) (f : Expression → Expression) :
    Except StoreError (Unit × Memory) :=
  if m.expressions.any (·.id == id) then
    .ok ((), { m with expressions := m.expressions.map fun e => if e.id = id then f e else e })
  else .error .notFound

/-- Answers a query. -/
def answer (m : Memory) : (q : Query) → Except StoreError (q.Answer × Memory)
  | .pendingTasks => .ok (m.tasks.filter (·.status == .pending), m)
  | .getTask id => .ok (m.task? id, m)
  | .expressionTasks id => .ok (m.tasksOf id, m)
  | .resolveOperand id slot value =>
    match Slot.ofNumber? slot with
    | some slot => m.updateTask id fun t => { t with args := t.args.set slot (some value) }
    | none => .error (.query ("invalid operand slot " ++ toString slot))
  | .setTaskStatus id status => m.updateTask id fun t => { t with status }
  | .completeTask id result =>
    m.updateTask id fun t => { t with status := .completed, result := some result }
  | .deleteExpressionTasks id =>
    .ok ((), { m with tasks := m.tasks.filter (·.expressionId != id) })
  | .expressionStatus id => .ok ((m.expression? id).map (·.status), m)
  | .markExpressionProcessing id =>
    m.updateExpression id fun e =>
      if e.status = .pending then { e with status := .processing } else e
  | .completeExpression id result =>
    m.updateExpression id fun e => { e with status := .completed, result := some result }
  | .failExpression id error =>
    m.updateExpression id fun e => { e with status := .error, error }

/-- Stores a new expression with its tasks. -/
def create (m : Memory) (now : Instant) (userId : UserId) (formula : String)
    (graph : TaskGraph) : Expression × Memory :=
  let expression : Expression :=
    { id := m.lastExpression + 1
      userId
      formula
      status := .pending
      result := none
      error := ""
      createdAt := now
      updatedAt := now }
  (expression,
    { expressions := m.expressions ++ [expression]
      tasks := m.tasks ++ Task.ofGraph expression.id m.lastTask graph
      lastExpression := expression.id
      lastTask := m.lastTask + graph.size })

/-- Removes the task with this number. -/
def removeTask (m : Memory) (id : TaskId) : Memory :=
  { m with tasks := m.tasks.filter (·.id != id) }

/-- Memory as a store; none of its own operations fails but for a row that is not there. -/
def store : Store Memory where
  admits _ := .ok ()
  answer _ q m := m.answer q
  create now userId formula graph m := .ok (m.create now userId formula graph)
  find id userId m := .ok ((m.expression? id).filter (·.userId == userId))
  listByUser userId m := .ok (m.expressions.reverse.filter (·.userId == userId))
  listTasks id m := .ok (m.tasksOf id)

end Memory

end Reckoner
