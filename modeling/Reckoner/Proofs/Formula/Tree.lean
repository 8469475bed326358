import Reckoner.Proofs.Formula.Numeral
import Reckoner.Proofs.Formula.Supply

/-!
# Trees of operations

The tree of a formula has numerals at its leaves and operations inside. It fixes a postfix form and,
by counting operations in postorder, the nodes of a graph. Assembling the postfix form of a tree
yields exactly its nodes, wherever in a longer form it stands.
-/

namespace Reckoner.Formula

/-- A formula without its grouping. -/
inductive Tree where
  | literal (numeral : Numeral)
  | negate (operand : Tree)
  | binary (op : Operation) (isBinary : op.arity = 2) (left right : Tree)

namespace Tree

/-- The number of operations. -/
def size : Tree → Nat
  | literal _ => 0
  | negate operand => operand.size + 1
  | binary _ _ left right => left.size + right.size + 1

/-- The operations in postorder, each behind what it is applied to. -/
def toPostfix : Tree → List Item
  | literal n => [.literal (String.ofList n.text)]
  | negate operand => operand.toPostfix ++ [.operation .negate]
  | binary op _ left right => left.toPostfix ++ right.toPostfix ++ [.operation op]

/-- The number of a literal. -/
def value? : Tree → Option Binary64
  | literal n => some n.value
  | _ => none

/-- The position of the last operation, when the first one has position `start`. -/
def position? (start : Nat) : Tree → Option Nat
  | literal _ => none
  | tree => some (start + (tree.size - 1))

/-- The nodes of the operations in postorder, the first one at position `start`. An operand is the
number of a literal or the position of a subtree's last operation; the left one has the left
slot. -/
def nodes (start : Nat) : Tree → List Node
  | literal _ => []
  | negate operand =>
    operand.nodes start ++ [⟨.negate, ⟨operand.value?, none⟩, ⟨operand.position? start, none⟩⟩]
  | binary op _ left right =>
    left.nodes start ++ right.nodes (start + left.size) ++
      [⟨op, ⟨left.value?, right.value?⟩,
        ⟨left.position? start, right.position? (start + left.size)⟩⟩]

/-- What the tree leaves on the stack of operands. -/
def operand (start : Nat) : Tree → Operand
  | literal n => .literal n.value
  | tree => .result (start + (tree.size - 1))

@[simp] theorem operand_literal (n : Numeral) (start : Nat) :
    (literal n).operand start = .literal n.value := rfl

@[simp] theorem operand_negate (inner : Tree) (start : Nat) :
    (negate inner).operand start = .result (start + inner.size) := rfl

@[simp] theorem operand_binary {op : Operation} (h : op.arity = 2) (left right : Tree)
    (start : Nat) :
    (binary op h left right).operand start = .result (start + (left.size + right.size)) := rfl

@[simp] theorem value?_operand (tree : Tree) (start : Nat) :
    (tree.operand start).value? = tree.value? := by
  cases tree <;> rfl

@[simp] theorem position?_operand (tree : Tree) (start : Nat) :
    (tree.operand start).position? = tree.position? start := by
  cases tree <;> rfl

/-- A binary operation takes the right operand from the top and the left one from below. -/
theorem take_binary {op : Operation} (h : op.arity = 2) (right left : Operand)
    (rest : List Operand) :
    take op (right :: left :: rest) = .ok (Operand.binary op left right, rest) := by
  cases op <;> first | rfl | exact absurd h (by decide)

/-- The postfix form of a tree is assembled into its nodes and leaves its operand. -/
theorem assemble_toPostfix (tree : Tree) (position : Nat) (stack : List Operand)
    (rest : List Item) :
    assemble position stack (tree.toPostfix ++ rest) =
      (tree.nodes position ++ ·) <$>
        assemble (position + tree.size) (tree.operand position :: stack) rest := by
  induction tree generalizing position stack rest with
  | literal n =>
    simp [toPostfix, assemble, n.ofText?_text, nodes, size]
  | negate inner ih =>
    have htake : take .negate (inner.operand position :: stack) =
        .ok ((inner.operand position).negated, stack) := rfl
    rw [toPostfix, List.append_assoc, List.singleton_append, ih, assemble_operation htake]
    simp [nodes, size, Operand.negated, Functor.map_map, Nat.add_assoc]
  | binary op h left right ihl ihr =>
    have htake := take_binary h (right.operand (position + left.size)) (left.operand position) stack
    rw [toPostfix, List.append_assoc, List.append_assoc, List.singleton_append, ihl, ihr,
      assemble_operation htake]
    simp [nodes, size, Operand.binary, Functor.map_map, Nat.add_assoc]

/-- The graph of a tree with at least one operation is made of its nodes. -/
theorem graphOfPostfix_toPostfix {tree : Tree} (h : tree.size ≠ 0) :
    graphOfPostfix tree.toPostfix = .ok ⟨tree.nodes 0⟩ := by
  have hroot : checkRoot [tree.operand 0] = .ok () := by
    cases tree with
    | literal n => exact absurd rfl h
    | negate operand => rfl
    | binary op hop left right => rfl
  have hall := tree.assemble_toPostfix 0 [] []
  rw [List.append_nil] at hall
  simp [graphOfPostfix, hall, assemble, hroot]

/-- A tree with an operation has a postfix form of more than one item. -/
theorem size_lt_length_toPostfix (tree : Tree) : tree.size < tree.toPostfix.length := by
  induction tree with
  | literal n => simp [size, toPostfix]
  | negate operand ih => simpa [size, toPostfix] using ih
  | binary op h left right ihl ihr =>
    simp only [size, toPostfix, List.length_append, List.length_singleton]
    omega

end Tree

end Reckoner.Formula
