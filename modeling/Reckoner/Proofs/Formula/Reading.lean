import Mathlib.Data.List.ReduceOption
import Reckoner.Proofs.Formula.Shape
import Reckoner.Proofs.Formula.Term

/-!
# Reading a graph back

A graph is read from its root: what the left slot of a node holds, what its right slot holds, then
the operation. While a postfix form is assembled, the operands on the stack, read in this way, spell
the items that have been worked off; so the graph is read back as the postfix form, its literals
replaced by their numbers. The result of every node but the root is taken by one slot.
-/

namespace Reckoner

/-! ## What is read -/

/-- A piece of a formula that has been read back. -/
inductive Symbol where
  /-- The number that a literal denotes. -/
  | value (x : Binary64)
  | operation (op : Operation)
deriving DecidableEq, Repr

/-- The number of a literal. -/
def Symbol.value? : Symbol → Option Binary64
  | value x => some x
  | operation _ => none

/-- A slot is read as its literal, or as what its dependency is read as. -/
def Node.readSlot (earlier : Nat → List Symbol) (node : Node) (slot : Slot) : List Symbol :=
  match node.args.get slot, node.dependencies.get slot with
  | some x, _ => [.value x]
  | none, some j => earlier j
  | none, none => []

/-- A node is read behind its slots, the left one first. -/
def Node.read (earlier : Nat → List Symbol) (node : Node) : List Symbol :=
  node.readSlot earlier .left ++ node.readSlot earlier .right ++ [.operation node.operation]

namespace TaskGraph

/-- The node at a position, read together with the nodes before it on which it depends. -/
def readFrom (graph : TaskGraph) (position : Nat) : List Symbol :=
  match graph.nodes[position]? with
  | none => []
  | some node => node.read fun j => if _h : j < position then graph.readFrom j else []
termination_by position

/-- The graph, read from its root. -/
def postorder (graph : TaskGraph) : List Symbol := graph.readFrom graph.root

/-- The literals of the graph in the order in which they are read. -/
def literals (graph : TaskGraph) : List Binary64 := graph.postorder.filterMap Symbol.value?

/-- The positions in the dependency slots of the nodes. -/
def dependencies (graph : TaskGraph) : List Nat :=
  graph.nodes.flatMap fun node => node.dependencies.toList.reduceOption

end TaskGraph

/-- The slots of a node that are needed are filled, and no others. -/
structure Node.Filled (node : Node) : Prop where
  /-- A needed slot has either a literal or a dependency. -/
  needed : ∀ slot ∈ node.operation.slots,
    (node.dependencies.get slot).isSome = !(node.args.get slot).isSome
  /-- A slot that is not needed has neither. -/
  unneeded : ∀ slot, slot ∉ node.operation.slots →
    node.args.get slot = none ∧ node.dependencies.get slot = none

namespace Formula

/-- What an item is read back as, unless it is a literal that is no number. -/
def Item.symbol? : Item → Option Symbol
  | .literal text => (Binary64.ofText? text).map .value
  | .operation op => some (.operation op)

end Formula

/-- The graph holds what the postfix form says, and nothing else. -/
structure TaskGraph.Represents (graph : TaskGraph) (items : List Formula.Item) : Prop where
  /-- The nodes are those of the operations, in their order. -/
  operations : graph.nodes.map Node.operation = Formula.operations items
  /-- Dependencies point backwards. -/
  backward : ∀ (i : Nat) (node : Node), graph.nodes[i]? = some node →
    ∀ slot j, node.dependencies.get slot = some j → j < i
  /-- A needed slot has either a literal or a dependency, and any other slot neither. -/
  filled : ∀ node ∈ graph.nodes, node.Filled
  /-- Every position before the root stands in one dependency slot, and no other position does. -/
  taken : graph.dependencies.Perm (List.range graph.root)
  /-- Read from the root, the graph is the postfix form with its literals replaced by their
  numbers. -/
  reads : graph.postorder.map some = items.map Formula.Item.symbol?

/-! ## Reading a node -/

/-- What a slot is read as depends on how its dependency is read. -/
theorem Node.readSlot_congr {node : Node} {slot : Slot} {f g : Nat → List Symbol}
    (h : ∀ j, node.dependencies.get slot = some j → f j = g j) :
    node.readSlot f slot = node.readSlot g slot := by
  unfold readSlot
  cases node.args.get slot with
  | some x => rfl
  | none =>
    cases hslot : node.dependencies.get slot with
    | none => rfl
    | some j => exact h j hslot

/-- A node whose dependencies point backwards is read behind what they are read as. -/
theorem TaskGraph.readFrom_eq {graph : TaskGraph} {position : Nat} {node : Node}
    (hnode : graph.nodes[position]? = some node)
    (hbackward : ∀ slot j, node.dependencies.get slot = some j → j < position) :
    graph.readFrom position = node.read graph.readFrom := by
  have hslot : ∀ slot, node.readSlot
      (fun j => if _h : j < position then graph.readFrom j else []) slot =
        node.readSlot graph.readFrom slot := by
    intro slot
    refine Node.readSlot_congr fun j hj => ?_
    exact dif_pos (hbackward slot j hj)
  rw [readFrom, hnode]
  simp only [Node.read, hslot]

namespace Formula

/-- What an operand on the stack is read as. -/
def Operand.read (earlier : Nat → List Symbol) : Operand → List Symbol
  | literal x => [.value x]
  | result j => earlier j

/-- What the operands on a stack are read as, the lowest one first. -/
def readStack (earlier : Nat → List Symbol) : List Operand → List Symbol
  | [] => []
  | top :: below => readStack earlier below ++ top.read earlier

/-- A unary minus is read behind its operand. -/
theorem Operand.read_negated (earlier : Nat → List Symbol) (operand : Operand) :
    operand.negated.read earlier = operand.read earlier ++ [.operation .negate] := by
  cases operand <;> simp [negated, Node.read, Node.readSlot, Operands.get, value?, position?, read]

/-- Any other operation is read behind both of its operands. -/
theorem Operand.read_binary (earlier : Nat → List Symbol) (op : Operation)
    (left right : Operand) :
    (Operand.binary op left right).read earlier =
      left.read earlier ++ right.read earlier ++ [.operation op] := by
  cases left <;> cases right <;>
    simp [binary, Node.read, Node.readSlot, Operands.get, value?, position?, read]

/-- One operation: the node in the place of its operands is read as they are, and the operation
behind them. -/
theorem readStack_of_take {op : Operation} {stack left : List Operand} {node : Node}
    (h : take op stack = .ok (node, left)) (earlier : Nat → List Symbol) :
    readStack earlier left ++ node.read earlier = readStack earlier stack ++ [.operation op] := by
  obtain ⟨operand, rfl, rfl, rfl⟩ | ⟨first, second, -, rfl, rfl⟩ := take_cases h
  · rw [readStack, Operand.read_negated, List.append_assoc]
  · simp only [readStack, Operand.read_binary, List.append_assoc]

/-- All operations: the graph is read as the operands on the stack and the items behind them. -/
theorem Assembles.reads {graph : TaskGraph} {before : List Node} {stack : List Operand}
    {items : List Item} {nodes : List Node} {position : Nat}
    (h : Assembles position stack items nodes) (hnodes : graph.nodes = before ++ nodes)
    (hposition : before.length = position) :
    graph.postorder.map some =
      (readStack graph.readFrom stack).map some ++ items.map Item.symbol? := by
  induction h generalizing before with
  | done root =>
    have hroot : graph.root = root := by
      rw [TaskGraph.root, TaskGraph.size, hnodes, List.append_nil, hposition, Nat.add_sub_cancel]
    simp [TaskGraph.postorder, hroot, readStack, Operand.read]
  | literal hread rest ih =>
    rw [ih hnodes hposition]
    simp [readStack, Operand.read, Item.symbol?, hread]
  | @operation position stack left items nodes op node hearlier htake rest ih =>
    have hnode : graph.nodes[position]? = some node := by
      rw [hnodes, List.getElem?_append_right (by omega), hposition, Nat.sub_self]
      rfl
    have hfrom := TaskGraph.readFrom_eq hnode (shaped_of_take htake hearlier).backward
    have hrest := @ih (before ++ [node]) (by simp [hnodes]) (by simp [hposition])
    rw [hrest, readStack, Operand.read, hfrom, readStack_of_take htake]
    simp [Item.symbol?]

/-! ## Slots and dependencies -/

/-- The node of an operation has its needed slots filled. -/
theorem filled_of_take {op : Operation} {stack left : List Operand} {node : Node}
    (h : take op stack = .ok (node, left)) : node.Filled := by
  have hoperand : ∀ operand : Operand, operand.position?.isSome = !operand.value?.isSome := by
    intro operand
    cases operand <;> rfl
  obtain ⟨operand, rfl, -, rfl⟩ | ⟨first, second, hslots, -, rfl⟩ := take_cases h
  · refine ⟨fun slot hslot => ?_, fun slot hslot => ?_⟩
    · obtain rfl : slot = .left := by simpa [Operand.negated, Operation.slots] using hslot
      exact hoperand operand
    · cases slot with
      | left => exact absurd (List.mem_cons_self ..) hslot
      | right => exact ⟨rfl, rfl⟩
  · refine ⟨fun slot _ => ?_, fun slot hslot => ?_⟩
    · cases slot with
      | left => exact hoperand first
      | right => exact hoperand second
    · refine absurd ?_ hslot
      change slot ∈ op.slots
      rw [hslots]
      cases slot <;> simp

/-- Every node that comes of a postfix form has its needed slots filled. -/
theorem Assembles.filled {position : Nat} {stack : List Operand} {items : List Item}
    {nodes : List Node} (h : Assembles position stack items nodes) :
    ∀ node ∈ nodes, node.Filled := by
  induction h with
  | done root => exact fun _ hnode => nomatch hnode
  | literal hread rest ih => exact ih
  | operation hearlier htake rest ih => exact List.forall_mem_cons.mpr ⟨filled_of_take htake, ih⟩

/-- The results that lie on a stack. -/
def results (stack : List Operand) : List Nat := stack.filterMap Operand.position?

/-- One operation: the results on the stack are taken by the node or left on it. -/
theorem results_of_take {op : Operation} {stack left : List Operand} {node : Node}
    (h : take op stack = .ok (node, left)) :
    (node.dependencies.toList.reduceOption ++ results left).Perm (results stack) := by
  obtain ⟨operand, rfl, rfl, rfl⟩ | ⟨first, second, -, rfl, rfl⟩ := take_cases h
  · cases operand <;> exact .refl _
  · cases first <;> cases second <;> first | exact .refl _ | exact .swap ..

/-- All operations: the results on the stack and the new ones are taken, but for the last one. -/
theorem Assembles.dependencies_perm {position : Nat} {stack : List Operand} {items : List Item}
    {nodes : List Node} (h : Assembles position stack items nodes) :
    ((nodes.flatMap fun node => node.dependencies.toList.reduceOption) ++
        [position + nodes.length - 1]).Perm
      (results stack ++ List.range' position nodes.length) := by
  induction h with
  | done root => exact .refl _
  | literal hread rest ih => exact ih
  | @operation position stack left items nodes op node hearlier htake rest ih =>
    have hlast : position + (nodes.length + 1) - 1 = position + 1 + nodes.length - 1 := by omega
    have hrest := ih.append_left node.dependencies.toList.reduceOption
    have hall := (results_of_take htake).append_right
      (position :: List.range' (position + 1) nodes.length)
    rw [List.flatMap_cons, List.length_cons, hlast, List.range'_succ, List.append_assoc]
    refine hrest.trans (.trans ?_ hall)
    rw [List.append_assoc]
    exact List.perm_middle.symm.append_left _

/-- The positions before the root of a graph are its dependencies, each once. -/
theorem taken_of_graphOfPostfix {items : List Item} {graph : TaskGraph}
    (h : graphOfPostfix items = .ok graph) :
    graph.dependencies.Perm (List.range graph.root) := by
  have hassembles := assembles_of_graphOfPostfix h
  have hlength := hassembles.length_pos
  have hperm := hassembles.dependencies_perm
  have hroot : graph.nodes.length = graph.root + 1 := by
    rw [TaskGraph.root, TaskGraph.size]
    omega
  rw [hroot, ← List.range_eq_range', List.range_succ, Nat.zero_add, Nat.add_sub_cancel] at hperm
  exact (List.perm_append_right_iff _).mp hperm

/-- The graph of a postfix form represents it. -/
theorem represents_of_graphOfPostfix {items : List Item} {graph : TaskGraph}
    (h : graphOfPostfix items = .ok graph) : graph.Represents items where
  operations := (assembles_of_graphOfPostfix h).operations_eq
  backward i node hi := ((shaped_of_graphOfPostfix h).node i node hi).backward
  filled := (assembles_of_graphOfPostfix h).filled
  taken := taken_of_graphOfPostfix h
  reads := (assembles_of_graphOfPostfix h).reads (List.nil_append _).symm rfl

/-- Exactly the postorders of terms with an operation have a graph, and the graph of a postfix form
represents it. -/
theorem graphOfPostfix_iff_postorder (items : List Item) :
    ((∃ graph, graphOfPostfix items = .ok graph) ↔
      ∃ term : Term, term.size ≠ 0 ∧ term.postorder = items) ∧
    ∀ graph, graphOfPostfix items = .ok graph → graph.Represents items := by
  constructor
  · exact graphOfPostfix_isOk_iff_exists_term items
  · intro graph hgraph
    exact represents_of_graphOfPostfix hgraph

/-- The postfix form of `(1+2)*-(3-4)`. -/
def postfixSample : List Item :=
  [.literal "1", .literal "2", .operation .add, .literal "3", .literal "4", .operation .subtract,
    .operation .negate, .operation .multiply]

/-- The graph of `postfixSample`. -/
def graphSample : TaskGraph where
  nodes := [
    ⟨.add, ⟨some ⟨0x3ff0000000000000⟩, some ⟨0x4000000000000000⟩⟩, ⟨none, none⟩⟩,
    ⟨.subtract, ⟨some ⟨0x4008000000000000⟩, some ⟨0x4010000000000000⟩⟩, ⟨none, none⟩⟩,
    ⟨.negate, ⟨none, none⟩, ⟨some 1, none⟩⟩,
    ⟨.multiply, ⟨none, none⟩, ⟨some 0, some 2⟩⟩]

/-- The sample is assembled into a graph that represents it. -/
theorem represents_sample :
    graphOfPostfix postfixSample = .ok graphSample ∧ graphSample.Represents postfixSample := by
  have hgraph : graphOfPostfix postfixSample = .ok graphSample := by decide +kernel
  exact ⟨hgraph, (graphOfPostfix_iff_postorder postfixSample).2 graphSample hgraph⟩

end Formula

end Reckoner
