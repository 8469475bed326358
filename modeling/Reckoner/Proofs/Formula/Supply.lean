import Mathlib.Tactic.Common
import Reckoner.Formula.Graph

/-!
# Which postfix forms are assembled

Whether a postfix form is assembled depends on the numbers among its literals and on the height of
the stack of operands alone. An operation leaves at least one operand; so it finds the operands that
it takes exactly when, with it, the literals still outnumber the binary operations. A form is
assembled when that holds at each of its operations and a single operand is left at the end.
-/

namespace Reckoner.Formula

/-! ## Counting -/

/-- Whether an item is a literal. -/
def Item.isLiteral : Item → Bool
  | .literal _ => true
  | .operation _ => false

/-- The operation of an item. -/
def Item.operation? : Item → Option Operation
  | .literal _ => none
  | .operation op => some op

/-- The number of literals. -/
def literalCount (items : List Item) : Nat := items.countP Item.isLiteral

/-- The operations, in their order. -/
def operations (items : List Item) : List Operation := items.filterMap Item.operation?

/-- The number of binary operations. -/
def binaryCount (ops : List Operation) : Nat := ops.countP (·.arity == 2)

@[simp] theorem literalCount_append (xs ys : List Item) :
    literalCount (xs ++ ys) = literalCount xs + literalCount ys := by simp [literalCount]

@[simp] theorem literalCount_map_operation (ops : List Operation) :
    literalCount (ops.map .operation) = 0 := by
  simp [literalCount, List.countP_eq_zero, Item.isLiteral]

@[simp] theorem literalCount_literal (text : String) (items : List Item) :
    literalCount (.literal text :: items) = literalCount items + 1 :=
  List.countP_cons_of_pos rfl

@[simp] theorem literalCount_operation (op : Operation) (items : List Item) :
    literalCount (.operation op :: items) = literalCount items :=
  List.countP_cons_of_neg Bool.false_ne_true

@[simp] theorem operations_nil : operations [] = [] := rfl

@[simp] theorem operations_append (xs ys : List Item) :
    operations (xs ++ ys) = operations xs ++ operations ys := by simp [operations]

@[simp] theorem operations_literal (text : String) (items : List Item) :
    operations (.literal text :: items) = operations items := rfl

@[simp] theorem operations_operation (op : Operation) (items : List Item) :
    operations (.operation op :: items) = op :: operations items := rfl

@[simp] theorem operations_map_operation (ops : List Operation) :
    operations (ops.map .operation) = ops := by
  induction ops with
  | nil => rfl
  | cons op ops ih => simp [ih]

@[simp] theorem binaryCount_nil : binaryCount [] = 0 := rfl

@[simp] theorem binaryCount_append (xs ys : List Operation) :
    binaryCount (xs ++ ys) = binaryCount xs + binaryCount ys := by simp [binaryCount]

/-- An operation takes one operand, or two if it is binary. -/
theorem binaryCount_cons (op : Operation) (ops : List Operation) :
    binaryCount (op :: ops) + 1 = binaryCount ops + op.arity := by
  cases op <;> simp [binaryCount, Operation.arity, Nat.add_assoc]

/-- The order of operations does not matter for their number. -/
theorem binaryCount_perm {xs ys : List Operation} (h : xs.Perm ys) :
    binaryCount xs = binaryCount ys := h.countP_eq _

/-! ## The height of the stack -/

/-- The height of the stack behind the items; nothing if an operation lacks operands. -/
def settle (height : Nat) : List Item → Option Nat
  | [] => some height
  | .literal _ :: rest => settle (height + 1) rest
  | .operation op :: rest =>
    if op.arity ≤ height then settle (height + 1 - op.arity) rest else none

/-- Behind each operation the literals and `height` others outnumber the binary operations. -/
def Covered (height : Nat) (items : List Item) : Prop :=
  ∀ front, front <+: items → operations front ≠ [] →
    binaryCount (operations front) < height + literalCount front

/-- A literal adds one to the height. -/
theorem covered_literal {height : Nat} {text : String} {rest : List Item} :
    Covered height (.literal text :: rest) ↔ Covered (height + 1) rest := by
  constructor
  · intro h front hfront hne
    have hcons := h (.literal text :: front) ((List.prefix_cons_inj _).mpr hfront)
      (by simpa using hne)
    simp only [operations_literal, literalCount_literal] at hcons
    omega
  · intro h front hfront hne
    obtain rfl | ⟨tail, rfl, htail⟩ := List.prefix_cons_iff.mp hfront
    · exact absurd rfl hne
    · have hrest := h tail htail (by simpa using hne)
      simp only [operations_literal, literalCount_literal]
      omega

/-- An operation takes its operands and adds its result. -/
theorem covered_operation {height : Nat} {op : Operation} {rest : List Item} :
    Covered height (.operation op :: rest) ↔
      op.arity ≤ height ∧ Covered (height + 1 - op.arity) rest := by
  have harity : 1 ≤ op.arity := by cases op <;> decide
  constructor
  · intro h
    have hone := h [.operation op] (by simp) (by simp)
    have hop := binaryCount_cons op []
    simp only [operations_operation, operations_nil, literalCount_operation] at hone hop
    simp only [binaryCount_nil] at hop
    have hle : op.arity ≤ height := by
      have : literalCount [] = 0 := rfl
      omega
    refine ⟨hle, fun front hfront hne => ?_⟩
    have hcons := h (.operation op :: front) ((List.prefix_cons_inj _).mpr hfront) (by simp)
    have hbinary := binaryCount_cons op (operations front)
    simp only [operations_operation, literalCount_operation] at hcons
    omega
  · rintro ⟨hle, h⟩ front hfront hne
    obtain rfl | ⟨tail, rfl, htail⟩ := List.prefix_cons_iff.mp hfront
    · exact absurd rfl hne
    · have hbinary := binaryCount_cons op (operations tail)
      simp only [operations_operation, literalCount_operation]
      by_cases hops : operations tail = []
      · simp only [hops, binaryCount_nil] at hbinary ⊢
        omega
      · have hrest := h tail htail hops
        omega

/-- A literal behind a covered form is harmless. -/
theorem Covered.append_literal {height : Nat} {items : List Item} (h : Covered height items)
    (text : String) : Covered height (items ++ [.literal text]) := by
  intro front hfront hne
  rcases List.prefix_concat_iff.mp hfront with rfl | hfront
  · simp only [operations_append, operations_literal, operations_nil, List.append_nil,
      literalCount_append] at hne ⊢
    have hitems := h items (List.prefix_refl _) hne
    omega
  · exact h front hfront hne

/-- Operations behind a covered form are covered if the last one of them is. -/
theorem Covered.append_operations {height : Nat} {items : List Item} (h : Covered height items)
    {ops : List Operation}
    (hops : operations items ++ ops ≠ [] →
      binaryCount (operations items ++ ops) < height + literalCount items) :
    Covered height (items ++ ops.map .operation) := by
  intro front hfront hne
  rcases List.prefix_or_prefix_of_prefix hfront (List.prefix_append items _) with hle | ⟨more, rfl⟩
  · exact h front hle hne
  · have hmore : operations more <+: ops := by
      have hmap : operations more <+: operations (ops.map .operation) :=
        ((List.prefix_append_right_inj items).mp hfront).filterMap Item.operation?
      rwa [operations_map_operation] at hmap
    have hcount : binaryCount (operations more) ≤ binaryCount ops := hmore.sublist.countP_le
    have hall : operations items ++ ops ≠ [] := by
      intro hnil
      obtain ⟨hitems, rfl⟩ := List.append_eq_nil_iff.mp hnil
      simp [hitems, List.prefix_nil.mp hmore] at hne
    have hlast := hops hall
    simp only [operations_append, binaryCount_append, literalCount_append] at hlast ⊢
    omega

/-- The stack settles at a height exactly when every operation is covered and the literals account
for the height and the binary operations. -/
theorem settle_eq_some_iff (items : List Item) (height final : Nat) :
    settle height items = some final ↔
      Covered height items ∧
        height + literalCount items = final + binaryCount (operations items) := by
  induction items generalizing height with
  | nil =>
    have hcovered : Covered height [] := by
      intro front hfront hne
      simp [List.prefix_nil.mp hfront] at hne
    simp [settle, hcovered, literalCount]
  | cons item rest ih =>
    cases item with
    | literal text =>
      simp only [settle, ih, covered_literal, literalCount_literal, operations_literal]
      constructor
      · rintro ⟨h, hcount⟩; exact ⟨h, by omega⟩
      · rintro ⟨h, hcount⟩; exact ⟨h, by omega⟩
    | operation op =>
      have hbinary := binaryCount_cons op (operations rest)
      have harity : 1 ≤ op.arity := by cases op <;> decide
      simp only [settle, covered_operation, literalCount_operation, operations_operation]
      by_cases hle : op.arity ≤ height
      · rw [if_pos hle, ih]
        simp only [hle, true_and]
        constructor
        · rintro ⟨h, hcount⟩; exact ⟨h, by omega⟩
        · rintro ⟨h, hcount⟩; exact ⟨h, by omega⟩
      · simp [hle]

/-! ## Assembling -/

/-- Whether a node has left its result on the stack. -/
def hasResult (stack : List Operand) : Bool := stack.any (·.position?.isSome)

/-- An operation finds its operands exactly when the stack is high enough. -/
theorem take_of_arity_le {op : Operation} {stack : List Operand} (h : op.arity ≤ stack.length) :
    ∃ node left, take op stack = .ok (node, left) ∧ left.length + op.arity = stack.length := by
  cases op
  case negate =>
    match stack, h with
    | operand :: rest, _ => exact ⟨operand.negated, rest, rfl, rfl⟩
  all_goals
    match stack, h with
    | right :: left :: rest, _ => exact ⟨Operand.binary _ left right, rest, rfl, rfl⟩

/-- An operation that lacks operands is refused. -/
theorem take_of_lt_arity {op : Operation} {stack : List Operand} (h : stack.length < op.arity) :
    ∃ e, take op stack = .error e := by
  cases op
  case negate =>
    match stack, h with
    | [], _ => exact ⟨_, rfl⟩
  all_goals
    match stack, h with
    | [], _ => exact ⟨_, rfl⟩
    | [_], _ => exact ⟨_, rfl⟩

/-- An operation on enough operands becomes the next node. -/
theorem assemble_operation {op : Operation} {position : Nat} {stack left : List Operand}
    {node : Node} (h : take op stack = .ok (node, left)) (rest : List Item) :
    assemble position stack (.operation op :: rest) =
      (node :: ·) <$> assemble (position + 1) (.result position :: left) rest := by
  simp only [assemble, h]
  rfl

/-- An operation that is refused ends the assembly. -/
theorem assemble_operation_error {op : Operation} {position : Nat} {stack : List Operand}
    {e : Error} (h : take op stack = .error e) (rest : List Item) :
    assemble position stack (.operation op :: rest) = .error e := by
  simp only [assemble, h]
  rfl

/-- A literal must be a number, which is then an operand of what follows. -/
theorem assemble_literal_eq_ok_iff {position : Nat} {stack : List Operand} {text : String}
    {rest : List Item} {nodes : List Node} :
    assemble position stack (.literal text :: rest) = .ok nodes ↔
      ∃ value, Binary64.ofText? text = some value ∧
        assemble position (.literal value :: stack) rest = .ok nodes := by
  cases hvalue : Binary64.ofText? text with
  | none => simp [assemble, hvalue]
  | some value => simp [assemble, hvalue]

/-- An operation must find its operands, and its result is then an operand of what follows. -/
theorem assemble_operation_eq_ok_iff {position : Nat} {stack : List Operand} {op : Operation}
    {rest : List Item} {nodes : List Node} :
    assemble position stack (.operation op :: rest) = .ok nodes ↔
      ∃ node left more, take op stack = .ok (node, left) ∧
        assemble (position + 1) (.result position :: left) rest = .ok more ∧
          nodes = node :: more := by
  cases htake : take op stack with
  | error e =>
    rw [assemble_operation_error htake]
    simp
  | ok taken =>
    obtain ⟨node, left⟩ := taken
    rw [assemble_operation htake]
    constructor
    · intro h
      cases hrest : assemble (position + 1) (.result position :: left) rest with
      | error e =>
        rw [hrest] at h
        cases h
      | ok more =>
        rw [hrest] at h
        exact ⟨node, left, more, rfl, hrest, (Except.ok.inj h).symm⟩
    · rintro ⟨_, _, more, heq, hrest, rfl⟩
      cases heq
      rw [hrest]
      rfl

/-- What is left must be one result. -/
theorem checkRoot_eq_ok_iff (stack : List Operand) :
    checkRoot stack = .ok () ↔ stack.length = 1 ∧ hasResult stack = true := by
  match stack with
  | [] => simp [checkRoot]
  | [.literal value] => simp [checkRoot, hasResult, Operand.position?]
  | [.result position] => simp [checkRoot, hasResult, Operand.position?]
  | _ :: _ :: _ => simp [checkRoot]

/-- The forms that are assembled on a stack: their literals are numbers, the stack settles at one
operand, and that is the result of a node. -/
theorem assemble_isOk_iff (items : List Item) (position : Nat) (stack : List Operand) :
    (∃ nodes, assemble position stack items = .ok nodes) ↔
      (∀ text, .literal text ∈ items → (Binary64.ofText? text).isSome = true) ∧
        settle stack.length items = some 1 ∧
          (operations items ≠ [] ∨ hasResult stack = true) := by
  induction items generalizing position stack with
  | nil =>
    have hroot := checkRoot_eq_ok_iff stack
    simp only [assemble, settle, operations_nil, ne_eq, not_true_eq_false, false_or,
      List.not_mem_nil, false_imp_iff, implies_true, true_and, Option.some.injEq, ← hroot]
    cases checkRoot stack with
    | ok u => simp
    | error e => simp
  | cons item rest ih =>
    cases item with
    | literal text =>
      cases hvalue : Binary64.ofText? text with
      | none =>
        simp only [assemble, hvalue, List.mem_cons]
        simp only [reduceCtorEq, exists_false, false_iff, not_and]
        intro hall
        exact absurd (hall text (Or.inl rfl)) (by simp [hvalue])
      | some value =>
        simp only [assemble, hvalue, ih, settle, List.length_cons, operations_literal,
          List.mem_cons, Item.literal.injEq]
        have hresult : hasResult (.literal value :: stack) = hasResult stack := rfl
        rw [hresult]
        refine and_congr_left fun _ => ?_
        constructor
        · rintro h other (rfl | hmem)
          · simp [hvalue]
          · exact h other hmem
        · exact fun h other hmem => h other (Or.inr hmem)
    | operation op =>
      simp only [settle, operations_operation, List.mem_cons, reduceCtorEq, false_or, ne_eq,
        not_false_eq_true, true_or, and_true]
      by_cases hle : op.arity ≤ stack.length
      · obtain ⟨node, left, htake, hlength⟩ := take_of_arity_le hle
        have hheight : stack.length + 1 - op.arity = (Operand.result position :: left).length := by
          simp only [List.length_cons]; omega
        have hresult : hasResult (.result position :: left) = true := rfl
        have hih := ih (position + 1) (.result position :: left)
        simp only [hresult, or_true, and_true] at hih
        rw [if_pos hle, hheight, ← hih]
        rw [assemble_operation htake]
        cases assemble (position + 1) (.result position :: left) rest with
        | ok nodes => simp
        | error e => simp
      · obtain ⟨e, htake⟩ := take_of_lt_arity (Nat.lt_of_not_le hle)
        rw [assemble_operation_error htake]
        simp [hle]

/-- The nodes of a graph are what is assembled. -/
theorem graphOfPostfix_eq_ok_iff {items : List Item} {graph : TaskGraph} :
    graphOfPostfix items = .ok graph ↔ assemble 0 [] items = .ok graph.nodes := by
  unfold graphOfPostfix
  cases assemble 0 [] items with
  | error e => exact ⟨nofun, nofun⟩
  | ok nodes =>
    constructor
    · intro h
      cases h
      rfl
    · intro h
      cases graph
      cases h
      rfl

/-- A formula is compiled when its postfix form has a graph. -/
theorem compile_eq_ok_iff {input : String} {graph : TaskGraph} :
    compile input = .ok graph ↔
      ∃ items, toPostfix (tokenize input) = .ok items ∧ graphOfPostfix items = .ok graph := by
  unfold compile
  cases toPostfix (tokenize input) with
  | error e => exact ⟨nofun, fun ⟨_, h, _⟩ => nomatch h⟩
  | ok items =>
    constructor
    · exact fun h => ⟨items, rfl, h⟩
    · rintro ⟨_, heq, h⟩
      cases heq
      exact h

/-- A postfix form has a graph exactly when its literals are numbers, it has an operation, every
operation is covered, and there is one literal more than binary operations. -/
theorem graphOfPostfix_isOk_iff (items : List Item) :
    (∃ graph, graphOfPostfix items = .ok graph) ↔
      (∀ text, .literal text ∈ items → (Binary64.ofText? text).isSome = true) ∧
        operations items ≠ [] ∧ Covered 0 items ∧
          literalCount items = binaryCount (operations items) + 1 := by
  have hassemble := assemble_isOk_iff items 0 []
  have hresult : hasResult [] = false := rfl
  have hsettle := settle_eq_some_iff items 0 1
  simp only [List.length_nil, hresult, Bool.false_eq_true, or_false, hsettle, Nat.zero_add,
    Nat.add_comm 1] at hassemble
  have hgraph : (∃ graph, graphOfPostfix items = .ok graph) ↔
      ∃ nodes, assemble 0 [] items = .ok nodes := by
    constructor
    · rintro ⟨graph, h⟩
      exact ⟨graph.nodes, graphOfPostfix_eq_ok_iff.mp h⟩
    · rintro ⟨nodes, h⟩
      exact ⟨⟨nodes⟩, graphOfPostfix_eq_ok_iff.mpr h⟩
  rw [hgraph, hassemble]
  tauto

end Reckoner.Formula
