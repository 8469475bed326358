import Reckoner.Proofs.Formula.Assembly

/-!
# The shape of a task graph

In the graph of a formula every needed slot of a node holds either a literal or the position of an
earlier node, and every node but the root is the dependency of another one: its result lies on the
stack of operands until it is taken, and at the end the result of the last node lies there alone.
Every literal of a node is one of the postfix form.
-/

namespace Reckoner

/-- What a node at a position of a graph is like. -/
structure Node.Shaped (node : Node) (position : Nat) : Prop where
  /-- Dependencies point backwards. -/
  backward : ∀ slot j, node.dependencies.get slot = some j → j < position
  /-- A needed slot without a literal has a dependency. -/
  supplied : ∀ slot ∈ node.operation.slots, node.args.get slot = none →
    ∃ j, node.dependencies.get slot = some j
  /-- A slot with a dependency has no literal. -/
  exclusive : ∀ slot j, node.dependencies.get slot = some j → node.args.get slot = none
  /-- A slot with a dependency is needed. -/
  needed : ∀ slot j, node.dependencies.get slot = some j → slot ∈ node.operation.slots

/-- What the graph of a formula is like. -/
structure TaskGraph.Shaped (graph : TaskGraph) : Prop where
  /-- There is a root. -/
  nonempty : graph.nodes ≠ []
  /-- Every node is shaped. -/
  node : ∀ (i : Nat) (node : Node), graph.nodes[i]? = some node → node.Shaped i
  /-- Every node but the root is a dependency. -/
  consumed : ∀ i, i < graph.root →
    ∃ node ∈ graph.nodes, ∃ slot, node.dependencies.get slot = some i

namespace Formula

/-! ## One operation -/

/-- An operand that is no literal is the result of a node. -/
theorem Operand.position?_of_value? {operand : Operand} (h : operand.value? = none) :
    ∃ position, operand.position? = some position ∧ operand = .result position := by
  cases operand with
  | literal value => cases h
  | result position => exact ⟨position, rfl, rfl⟩

/-- Only the result of a node has a position. -/
theorem Operand.eq_result {operand : Operand} {position : Nat}
    (h : operand.position? = some position) : operand = .result position := by
  cases operand with
  | literal value => cases h
  | result other => exact congrArg _ (Option.some.inj h)

/-- A node made of earlier results is shaped. -/
theorem shaped_of_take {op : Operation} {stack left : List Operand} {node : Node} {position : Nat}
    (h : take op stack = .ok (node, left)) (hstack : Earlier position stack) :
    node.Shaped position := by
  obtain ⟨operand, rfl, rfl, rfl⟩ | ⟨first, second, hslots, rfl, rfl⟩ := take_cases h
  · refine ⟨fun slot j hj => ?_, fun slot hslot hnone => ?_, fun slot j hj => ?_,
      fun slot j hj => ?_⟩
    · cases slot with
      | left => exact hstack j (Operand.eq_result hj ▸ List.mem_cons_self ..)
      | right => cases hj
    · obtain rfl : slot = .left := by simpa [Operand.negated, Operation.slots] using hslot
      obtain ⟨j, hj, -⟩ := Operand.position?_of_value? hnone
      exact ⟨j, hj⟩
    · cases slot with
      | left => cases Operand.eq_result hj; rfl
      | right => cases hj
    · cases slot with
      | left => exact List.mem_cons_self ..
      | right => cases hj
  · refine ⟨fun slot j hj => ?_, fun slot hslot hnone => ?_, fun slot j hj => ?_,
      fun slot j hj => ?_⟩
    · cases slot with
      | left =>
        exact hstack j (Operand.eq_result hj ▸ List.mem_cons_of_mem _ (List.mem_cons_self ..))
      | right => exact hstack j (Operand.eq_result hj ▸ List.mem_cons_self ..)
    · cases slot <;>
      · obtain ⟨j, hj, -⟩ := Operand.position?_of_value? hnone
        exact ⟨j, hj⟩
    · cases slot <;> cases Operand.eq_result hj <;> rfl
    · change slot ∈ op.slots
      rw [hslots]
      cases slot <;> simp

/-- A result on the stack is taken as a dependency or left on it. -/
theorem mem_of_take {op : Operation} {stack left : List Operand} {node : Node} {j : Nat}
    (h : take op stack = .ok (node, left)) (hj : .result j ∈ stack) :
    .result j ∈ left ∨ ∃ slot, node.dependencies.get slot = some j := by
  obtain ⟨operand, -, rfl, rfl⟩ | ⟨first, second, -, rfl, rfl⟩ := take_cases h
  · rcases List.mem_cons.mp hj with rfl | hj
    · exact Or.inr ⟨.left, rfl⟩
    · exact Or.inl hj
  · rcases List.mem_cons.mp hj with rfl | hj
    · exact Or.inr ⟨.right, rfl⟩
    · rcases List.mem_cons.mp hj with rfl | hj
      · exact Or.inr ⟨.left, rfl⟩
      · exact Or.inl hj

/-- A literal operand of a node stands in a slot that is needed, and was on the stack. -/
theorem literal_of_take {op : Operation} {stack left : List Operand} {node : Node}
    (h : take op stack = .ok (node, left)) {slot : Slot} {value : Binary64}
    (hvalue : node.args.get slot = some value) :
    slot ∈ node.operation.slots ∧ .literal value ∈ stack := by
  have hliteral : ∀ operand : Operand, operand.value? = some value → operand = .literal value := by
    rintro (_ | _) heq <;> cases heq
    rfl
  obtain ⟨operand, rfl, rfl, rfl⟩ | ⟨first, second, hslots, rfl, rfl⟩ := take_cases h
  · cases slot with
    | left => exact ⟨List.mem_cons_self .., hliteral operand hvalue ▸ List.mem_cons_self ..⟩
    | right => cases hvalue
  · have hneeded : slot ∈ op.slots := by
      rw [hslots]
      cases slot <;> simp
    refine ⟨hneeded, ?_⟩
    cases slot with
    | left =>
      exact hliteral first hvalue ▸ List.mem_cons_of_mem _ (List.mem_cons_self ..)
    | right => exact hliteral second hvalue ▸ List.mem_cons_self ..

/-! ## All operations -/

/-- A literal operand of a node stands in a slot that is needed. It was on the stack, or is read
from a literal of the postfix form. -/
theorem Assembles.literal_cases {items : List Item} {position : Nat} {stack : List Operand}
    {nodes : List Node} (h : Assembles position stack items nodes) {node : Node}
    (hnode : node ∈ nodes) {slot : Slot} {value : Binary64}
    (hvalue : node.args.get slot = some value) :
    slot ∈ node.operation.slots ∧ (.literal value ∈ stack ∨
      ∃ text, .literal text ∈ items ∧ Binary64.ofText? text = some value) := by
  induction h with
  | done root => cases hnode
  | literal hread rest ih =>
    obtain ⟨hneeded, hstack | ⟨other, hother, hvalue⟩⟩ := ih hnode
    · refine ⟨hneeded, ?_⟩
      rcases List.mem_cons.mp hstack with heq | hstack
      · cases heq
        exact Or.inr ⟨_, List.mem_cons_self .., hread⟩
      · exact Or.inl hstack
    · exact ⟨hneeded, Or.inr ⟨other, List.mem_cons_of_mem _ hother, hvalue⟩⟩
  | operation hearlier htake rest ih =>
    rcases List.mem_cons.mp hnode with rfl | hnode
    · obtain ⟨hneeded, hstack⟩ := literal_of_take htake hvalue
      exact ⟨hneeded, Or.inl hstack⟩
    · obtain ⟨hneeded, hstack | ⟨text, htext, hvalue⟩⟩ := ih hnode
      · refine ⟨hneeded, Or.inl (subset_of_take htake ?_)⟩
        simpa using hstack
      · exact ⟨hneeded, Or.inr ⟨text, List.mem_cons_of_mem _ htext, hvalue⟩⟩

/-- What is assembled behind a stack: shaped nodes, after which only the last result is left. -/
structure Assembled (position : Nat) (stack : List Operand) (nodes : List Node) : Prop where
  /-- Every node is shaped. -/
  node : ∀ (k : Nat) (node : Node), nodes[k]? = some node → node.Shaped (position + k)
  /-- Every result on the stack is taken, unless it is the last one. -/
  taken : ∀ j, .result j ∈ stack → j + 1 ≠ position + nodes.length →
    ∃ node ∈ nodes, ∃ slot, node.dependencies.get slot = some j
  /-- Every new result is taken, unless it is the last one. -/
  consumed : ∀ k, k + 1 < nodes.length →
    ∃ node ∈ nodes, ∃ slot, node.dependencies.get slot = some (position + k)

/-- An operation in front of what is assembled behind it. -/
theorem Assembled.cons {op : Operation} {position : Nat} {stack left : List Operand} {node : Node}
    {nodes : List Node} (htake : take op stack = .ok (node, left))
    (hstack : Earlier position stack)
    (h : Assembled (position + 1) (.result position :: left) nodes) :
    Assembled position stack (node :: nodes) := by
  refine ⟨fun k other hother => ?_, fun j hj hne => ?_, fun k hk => ?_⟩
  · cases k with
    | zero =>
      cases hother
      exact shaped_of_take htake hstack
    | succ k =>
      rw [← Nat.add_assoc, Nat.add_right_comm]
      exact h.node k other hother
  · obtain hleft | hslot := mem_of_take htake hj
    · have hlast : j + 1 ≠ position + 1 + nodes.length := by
        rw [List.length_cons] at hne
        omega
      obtain ⟨other, hother, hslot⟩ := h.taken j (List.mem_cons_of_mem _ hleft) hlast
      exact ⟨other, List.mem_cons_of_mem _ hother, hslot⟩
    · exact ⟨node, List.mem_cons_self .., hslot⟩
  · rw [List.length_cons] at hk
    have hrest : ∃ other ∈ nodes, ∃ slot, other.dependencies.get slot = some (position + k) := by
      cases k with
      | zero => exact h.taken position (List.mem_cons_self ..) (by omega)
      | succ k =>
        rw [← Nat.add_assoc, Nat.add_right_comm]
        exact h.consumed k (by omega)
    obtain ⟨other, hother, hslot⟩ := hrest
    exact ⟨other, List.mem_cons_of_mem _ hother, hslot⟩

/-- What comes of a postfix form is assembled behind its stack. -/
theorem Assembles.assembled {items : List Item} {position : Nat} {stack : List Operand}
    {nodes : List Node} (h : Assembles position stack items nodes) :
    Assembled position stack nodes := by
  induction h with
  | done root =>
    refine ⟨fun k node hk => absurd hk (by simp), fun j hj hne => ?_,
      fun k hk => absurd hk (by simp)⟩
    obtain rfl : j = root := by simpa using hj
    exact absurd rfl hne
  | literal hread rest ih =>
    exact ⟨ih.node, fun j hj => ih.taken j (List.mem_cons_of_mem _ hj), ih.consumed⟩
  | operation hearlier htake rest ih => exact ih.cons htake hearlier

/-- A literal operand of the graph of a formula stands in a slot that is needed, and is read from a
literal of the postfix form. -/
theorem literal_of_compile {input : String} {graph : TaskGraph} (h : compile input = .ok graph)
    {node : Node} (hnode : node ∈ graph.nodes) {slot : Slot} {value : Binary64}
    (hvalue : node.args.get slot = some value) :
    slot ∈ node.operation.slots ∧ ∃ items text, toPostfix (tokenize input) = .ok items ∧
      .literal text ∈ items ∧ Binary64.ofText? text = some value := by
  obtain ⟨items, hitems, hgraph⟩ := compile_eq_ok_iff.mp h
  obtain ⟨hneeded, hstack | ⟨text, htext, hread⟩⟩ :=
    (assembles_of_graphOfPostfix hgraph).literal_cases hnode hvalue
  · cases hstack
  · exact ⟨hneeded, items, text, hitems, htext, hread⟩

/-- The graph of a postfix form is shaped. -/
theorem shaped_of_graphOfPostfix {items : List Item} {graph : TaskGraph}
    (h : graphOfPostfix items = .ok graph) : graph.Shaped := by
  have hassembles := assembles_of_graphOfPostfix h
  have hassembled := hassembles.assembled
  have hlength := hassembles.length_pos
  refine ⟨fun hnil => ?_, fun i node hi => ?_, fun i hi => ?_⟩
  · rw [hnil] at hlength
    exact Nat.lt_irrefl _ hlength
  · rw [← Nat.zero_add i]
    exact hassembled.node i node hi
  · rw [← Nat.zero_add i]
    refine hassembled.consumed i ?_
    simp only [TaskGraph.root, TaskGraph.size] at hi
    omega

/-- The graph of a formula is shaped. -/
theorem shaped_of_compile {input : String} {graph : TaskGraph} (h : compile input = .ok graph) :
    graph.Shaped := by
  obtain ⟨items, -, hgraph⟩ := compile_eq_ok_iff.mp h
  exact shaped_of_graphOfPostfix hgraph

end Formula

end Reckoner
