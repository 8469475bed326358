import Reckoner.Operands
import Reckoner.Number.Literal
import Reckoner.Formula.Postfix

/-!
# The task graph of a formula

A postfix form is worked off on a stack of operands. Each operation becomes a node that holds its
literal operands and names the nodes that compute the others by their position, so every
dependency points backwards and the last node is the root.
-/

namespace Reckoner

/-- One operation of a graph. -/
structure Node where
  /-- What is computed. -/
  operation : Operation
  /-- The operands that are literals. -/
  args : Operands (Option Binary64)
  /-- The positions of the nodes that compute the other operands. -/
  dependencies : Operands (Option Nat)
deriving DecidableEq, Repr

/-- The operations of a formula, in the order of their evaluation. -/
structure TaskGraph where
  /-- The nodes; their positions are their names. -/
  nodes : List Node
deriving DecidableEq, Repr

namespace TaskGraph

/-- The number of operations. -/
def size (graph : TaskGraph) : Nat := graph.nodes.length

/-- The position of the node whose result is the value of the formula. -/
def root (graph : TaskGraph) : Nat := graph.size - 1

end TaskGraph

namespace Formula

/-- An operand on the stack. -/
inductive Operand where
  | literal (value : Binary64)
  /-- The result of the node at this position. -/
  | result (position : Nat)
deriving DecidableEq, Repr

/-- The value of a literal operand. -/
def Operand.value? : Operand → Option Binary64
  | literal value => some value
  | result _ => none

/-- The position behind a computed operand. -/
def Operand.position? : Operand → Option Nat
  | literal _ => none
  | result position => some position

/-- The node of a binary operation. -/
def Operand.binary (op : Operation) (left right : Operand) : Node :=
  ⟨op, ⟨left.value?, right.value?⟩, ⟨left.position?, right.position?⟩⟩

/-- The node of a unary minus. -/
def Operand.negated (operand : Operand) : Node :=
  ⟨.negate, ⟨operand.value?, none⟩, ⟨operand.position?, none⟩⟩

/-- Takes the operands of an operation from the stack, the right one first. -/
def take (op : Operation) (stack : List Operand) : Except Error (Node × List Operand) :=
  match op, stack with
  | .negate, operand :: rest => .ok (operand.negated, rest)
  | .negate, [] => .error .unaryMinusWithoutOperand
  | op, right :: left :: rest => .ok (Operand.binary op left right, rest)
  | op, _ => .error (.notEnoughOperands op.symbol)

/-- What must be left on the stack at the end: the result of the root. -/
def checkRoot : List Operand → Except Error Unit
  | [.result _] => .ok ()
  | [.literal _] => .error .noOperator
  | stack => .error (.rootCount stack.length)

/-- The nodes that the items behind `position` earlier nodes add. -/
def assemble (position : Nat) (stack : List Operand) : List Item → Except Error (List Node)
  | [] => do
    checkRoot stack
    return []
  | .literal text :: rest =>
    match Binary64.ofText? text with
    | some value => assemble position (.literal value :: stack) rest
    | none => .error (.invalidNumber text)
  | .operation op :: rest => do
    let (node, left) ← take op stack
    let nodes ← assemble (position + 1) (.result position :: left) rest
    return node :: nodes

/-- The graph of a postfix form. -/
def graphOfPostfix (items : List Item) : Except Error TaskGraph := do
  let nodes ← assemble 0 [] items
  return ⟨nodes⟩

/-- The graph of a formula. -/
def compile (input : String) : Except Error TaskGraph := do
  let items ← toPostfix (tokenize input)
  graphOfPostfix items

end Formula

end Reckoner
