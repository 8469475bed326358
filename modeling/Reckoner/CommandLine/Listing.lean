import Reckoner.Expression
import Reckoner.Formula.Graph
import Reckoner.Json.Value
import Reckoner.Table

/-!
# What commands show

Expressions, tasks and graphs as tables and as JSON. Tables show numbers with all their digits, and
an operand that is not known yet by what will bring it.
-/

namespace Reckoner.CommandLine

open Json (Value)

/-! ## Tables -/

/-- A status with a mark in front of it. -/
def markedStatus (status : ExpressionStatus) : String :=
  let mark :=
    match status with
    | .pending => "○"
    | .processing => "◐"
    | .completed => "●"
    | .error => "✗"
  mark ++ " " ++ status.text

/-- The outcome of an expression: its error if it failed, its value if it has one. -/
def outcomeText (e : Expression) : String :=
  if e.status = .error then e.error
  else
    match e.result with
    | some value => NumberLayout.plain.render value
    | none => "-"

/-- An operand: its value, or else the number of what brings it. -/
def operandText (value : Option Binary64) (source : Option Int) : String :=
  match value, source with
  | some value, _ => NumberLayout.plain.render value
  | none, some id => "<- #" ++ toString id
  | none, none => ""

/-- The table of expressions. -/
def expressionTable (expressions : List Expression) : Table where
  header := ["ID", "Expression", "Status", "Result", "Submitted"]
  rows := expressions.map fun e =>
    [toString e.id, e.formula, markedStatus e.status, outcomeText e, e.createdAt.listed]

/-- The table of tasks. -/
def taskTable (tasks : List Task) : Table where
  header := ["Task", "Op", "Left", "Right", "Status", "Result"]
  rows := tasks.map fun t =>
    ["#" ++ toString t.id, t.operation.symbol, operandText t.args.left t.dependencies.left,
      operandText t.args.right t.dependencies.right, t.status.text,
      (t.result.map NumberLayout.plain.render).getD ""]

/-- The table of the operations of a graph. -/
def graphTable (graph : TaskGraph) : Table where
  header := ["#", "Op", "Left", "Right"]
  rows := graph.nodes.mapIdx fun i node =>
    let source (position : Option Nat) : Option Int := position.map Int.ofNat
    ["#" ++ toString i, node.operation.symbol,
      operandText node.args.left (source node.dependencies.left),
      operandText node.args.right (source node.dependencies.right)]

/-! ## JSON -/

/-- What stands in both slots, as an array. -/
def operandsValue {α : Type} (f : α → Value) (operands : Operands (Option α)) : Value :=
  .array (operands.toList.map (.ofOption f))

/-- An expression with all that is known of it. -/
def expressionValue (e : Expression) : Value :=
  .object [("id", .integer e.id), ("user_id", .integer e.userId), ("expression", .text e.formula),
    ("status", .text e.status.text), ("result", .ofOption .number e.result),
    ("error", .text e.error), ("created_at", .text e.createdAt.zulu),
    ("updated_at", .text e.updatedAt.zulu)]

/-- A task with all that is known of it. -/
def taskValue (t : Task) : Value :=
  .object [("id", .integer t.id), ("expression_id", .integer t.expressionId),
    ("operation", .text t.operation.symbol), ("args", operandsValue .number t.args),
    ("dependencies", operandsValue .integer t.dependencies), ("status", .text t.status.text),
    ("result", .ofOption .number t.result)]

/-- An operation of a graph. -/
def nodeValue (node : Node) : Value :=
  .object [("operation", .text node.operation.symbol), ("args", operandsValue .number node.args),
    ("dependencies", operandsValue .natural node.dependencies)]

/-- A graph. -/
def graphValue (graph : TaskGraph) : Value :=
  .object [("valid", .boolean true), ("root", .natural graph.root),
    ("tasks", .array (graph.nodes.map nodeValue))]

/-- An error of a formula. -/
def formulaErrorValue (e : Formula.Error) : Value :=
  .object [("valid", .boolean false), ("code", .text e.code), ("message", .text e.message)]

end Reckoner.CommandLine
