import Reckoner.Proofs.Formula.Supply

/-!
# How a postfix form is assembled

A postfix form is worked off step by step: a literal that is read is put on the stack of operands,
and an operation takes its operands from it and puts back the result of its node. At the end the
result of the last node is left alone. `Assembles` says which nodes come of a form in this way, and
what holds of all graphs of postfix forms is shown by induction on it.
-/

namespace Reckoner.Formula

/-! ## One operation -/

/-- What is taken from the stack: one operand by a unary minus, two by any other operation. -/
theorem take_cases {op : Operation} {stack left : List Operand} {node : Node}
    (h : take op stack = .ok (node, left)) :
    (∃ operand, op = .negate ∧ stack = operand :: left ∧ node = operand.negated) ∨
      ∃ first second, op.slots = [.left, .right] ∧ stack = second :: first :: left ∧
        node = Operand.binary op first second := by
  cases op with
  | negate =>
    match stack, h with
    | operand :: rest, h =>
      cases h
      exact Or.inl ⟨operand, rfl, rfl, rfl⟩
  | add | subtract | multiply | divide | power =>
    match stack, h with
    | second :: first :: rest, h =>
      cases h
      exact Or.inr ⟨first, second, rfl, rfl, rfl⟩

/-- What is left on the stack was there before. -/
theorem subset_of_take {op : Operation} {stack left : List Operand} {node : Node}
    (h : take op stack = .ok (node, left)) : left ⊆ stack := by
  obtain ⟨operand, -, rfl, rfl⟩ | ⟨first, second, -, rfl, rfl⟩ := take_cases h
  · exact List.subset_cons_self ..
  · exact fun _ hmem => List.mem_cons_of_mem _ (List.mem_cons_of_mem _ hmem)

/-- The node is one of the operation. -/
theorem operation_of_take {op : Operation} {stack left : List Operand} {node : Node}
    (h : take op stack = .ok (node, left)) : node.operation = op := by
  obtain ⟨operand, rfl, -, rfl⟩ | ⟨first, second, -, -, rfl⟩ := take_cases h <;> rfl

/-! ## All operations -/

/-- The results on a stack are those of nodes before a position. -/
def Earlier (position : Nat) (stack : List Operand) : Prop :=
  ∀ j, .result j ∈ stack → j < position

/-- Which nodes come of the items behind `position` earlier nodes and a stack of operands. -/
inductive Assembles : Nat → List Operand → List Item → List Node → Prop
  | done (root : Nat) : Assembles (root + 1) [.result root] [] []
  | literal {position : Nat} {stack : List Operand} {items : List Item} {nodes : List Node}
    {text : String} {value : Binary64} (hread : Binary64.ofText? text = some value)
    (rest : Assembles position (.literal value :: stack) items nodes) :
    Assembles position stack (.literal text :: items) nodes
  | operation {position : Nat} {stack left : List Operand} {items : List Item}
    {nodes : List Node} {op : Operation} {node : Node} (hearlier : Earlier position stack)
    (htake : take op stack = .ok (node, left))
    (rest : Assembles (position + 1) (.result position :: left) items nodes) :
    Assembles position stack (.operation op :: items) (node :: nodes)

/-- A stack on which a last result alone is left. -/
theorem eq_of_checkRoot {stack : List Operand} (h : checkRoot stack = .ok ()) :
    ∃ position, stack = [.result position] := by
  obtain ⟨hlength, hresult⟩ := (checkRoot_eq_ok_iff stack).mp h
  obtain ⟨operand, rfl⟩ := List.length_eq_one_iff.mp hlength
  cases operand with
  | literal value => cases hresult
  | result position => exact ⟨position, rfl⟩

/-- What is assembled, provided that the last of the nodes before it, if there is one, has its
result on the stack: until the next operation takes it, it lies there, so at the end it is the one
that is left. -/
theorem Assembles.of_eq_ok {items : List Item} {position : Nat} {stack : List Operand}
    {nodes : List Node} (h : assemble position stack items = .ok nodes)
    (hstack : Earlier position stack)
    (hlast : ∀ last, last + 1 = position → .result last ∈ stack) :
    Assembles position stack items nodes := by
  induction items generalizing position stack nodes with
  | nil =>
    cases hroot : checkRoot stack with
    | error e =>
      simp only [assemble, hroot] at h
      cases h
    | ok u =>
      obtain ⟨root, rfl⟩ := eq_of_checkRoot hroot
      simp only [assemble, hroot] at h
      cases h
      have hroot := hstack root (List.mem_cons_self ..)
      have hmem := hlast (position - 1) (by omega)
      simp only [List.mem_singleton, Operand.result.injEq] at hmem
      obtain rfl : position = root + 1 := by omega
      exact .done root
  | cons item items ih =>
    cases item with
    | literal text =>
      obtain ⟨value, hread, h⟩ := assemble_literal_eq_ok_iff.mp h
      refine .literal hread (ih h (fun j hj => hstack j ?_) fun last hposition => ?_)
      · simpa using hj
      · exact List.mem_cons_of_mem _ (hlast last hposition)
    | operation op =>
      obtain ⟨node, left, more, htake, hrest, rfl⟩ := assemble_operation_eq_ok_iff.mp h
      refine .operation hstack htake (ih hrest (fun j hj => ?_) fun last hposition => ?_)
      · rcases List.mem_cons.mp hj with heq | hj
        · cases heq
          exact Nat.lt_succ_self _
        · exact Nat.lt_succ_of_lt (hstack j (subset_of_take htake hj))
      · rw [Nat.add_right_cancel hposition]
        exact List.mem_cons_self ..

/-- The nodes of a graph come of its postfix form. -/
theorem assembles_of_graphOfPostfix {items : List Item} {graph : TaskGraph}
    (h : graphOfPostfix items = .ok graph) : Assembles 0 [] items graph.nodes :=
  .of_eq_ok (graphOfPostfix_eq_ok_iff.mp h) (fun _ hj => nomatch hj) (fun _ hlast => nomatch hlast)

/-- The nodes are those of the operations, in their order. -/
theorem Assembles.operations_eq {position : Nat} {stack : List Operand} {items : List Item}
    {nodes : List Node} (h : Assembles position stack items nodes) :
    nodes.map Node.operation = operations items := by
  induction h with
  | done root => rfl
  | literal hread rest ih => exact ih
  | operation hearlier htake rest ih =>
    rw [List.map_cons, operations_operation, operation_of_take htake, ih]

/-- Behind the nodes before them and those that are added there is a last one. -/
theorem Assembles.length_pos {position : Nat} {stack : List Operand} {items : List Item}
    {nodes : List Node} (h : Assembles position stack items nodes) :
    0 < position + nodes.length := by
  induction h with
  | done root => exact Nat.succ_pos root
  | literal hread rest ih => exact ih
  | operation hearlier htake rest ih =>
    rw [List.length_cons]
    omega

end Reckoner.Formula
