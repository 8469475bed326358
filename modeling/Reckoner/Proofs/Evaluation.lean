import Mathlib.Tactic.Common
import Reckoner.Message
import Reckoner.Proofs.Formula.Shape

/-!
# Evaluating a graph in order

The nodes of a graph can be computed one after the other, each from the outcomes of the nodes before
it. This is what a formula means; a worker's report says what the outcome of one node is.
-/

namespace Reckoner

/-! ## Outcomes -/

/-- What computing a node comes to. -/
abbrev Outcome : Type := Except ComputeError Binary64

/-- Why an outcome fails the formula, if it does. -/
def Outcome.failure? : Outcome → Option String
  | .error e => some e.message
  | .ok value => nonFiniteError value

/-- The operand of a slot: the outcome of the dependency if there is one, and the literal if not. -/
def Node.input (earlier : List Outcome) (node : Node) (slot : Slot) : Option Binary64 :=
  match node.dependencies.get slot with
  | some j => earlier[j]?.bind Except.toOption
  | none => node.args.get slot

/-- The operands of a node. -/
def Node.inputs (earlier : List Outcome) (node : Node) : Operands (Option Binary64) :=
  ⟨node.input earlier .left, node.input earlier .right⟩

/-- The outcome of a node behind earlier ones. -/
def Node.outcome (arith : Arithmetic) (earlier : List Outcome) (node : Node) : Outcome :=
  calculate arith node.operation.symbol (node.inputs earlier)

/-- The outcomes of nodes, each computed from those before it. -/
def evaluate (arith : Arithmetic) (earlier : List Outcome) : List Node → List Outcome
  | [] => earlier
  | node :: rest => evaluate arith (earlier ++ [node.outcome arith earlier]) rest

/-- The outcomes of all nodes of a graph, in order. -/
def TaskGraph.outcomes (arith : Arithmetic) (graph : TaskGraph) : List Outcome :=
  evaluate arith [] graph.nodes

@[simp] theorem Node.get_inputs (earlier : List Outcome) (node : Node) (slot : Slot) :
    (node.inputs earlier).get slot = node.input earlier slot := by
  cases slot <;> rfl

/-- Earlier outcomes are kept. -/
theorem prefix_evaluate (arith : Arithmetic) (earlier : List Outcome) (nodes : List Node) :
    earlier <+: evaluate arith earlier nodes := by
  induction nodes generalizing earlier with
  | nil => exact List.prefix_refl _
  | cons node nodes ih => exact (List.prefix_append _ _).trans (ih _)

/-- Every node has one outcome. -/
theorem length_evaluate (arith : Arithmetic) (earlier : List Outcome) (nodes : List Node) :
    (evaluate arith earlier nodes).length = earlier.length + nodes.length := by
  induction nodes generalizing earlier with
  | nil => rfl
  | cons node nodes ih =>
    rw [evaluate, ih, List.length_append, List.length_singleton, List.length_cons]
    omega

/-- A node is computed from the outcomes before its own. -/
theorem getElem?_evaluate (arith : Arithmetic) (earlier : List Outcome) {nodes : List Node}
    {k : Nat} {node : Node} (h : nodes[k]? = some node) :
    (evaluate arith earlier nodes)[earlier.length + k]? =
      some (node.outcome arith ((evaluate arith earlier nodes).take (earlier.length + k))) := by
  induction nodes generalizing earlier k with
  | nil => simp at h
  | cons first nodes ih =>
    rw [evaluate]
    cases k with
    | zero =>
      cases h
      have hprefix := prefix_evaluate arith (earlier ++ [node.outcome arith earlier]) nodes
      obtain ⟨rest, hrest⟩ := hprefix
      rw [← hrest, Nat.add_zero, List.append_assoc, List.take_left]
      simp
    | succ k =>
      have hnext := ih (earlier ++ [first.outcome arith earlier]) h
      rw [List.length_append, List.length_singleton, Nat.add_assoc, Nat.add_comm 1] at hnext
      exact hnext

/-- The outcome of a node depends on the outcomes of its dependencies alone. -/
theorem Node.outcome_congr {arith : Arithmetic} {node : Node} {xs ys : List Outcome}
    (h : ∀ slot j, node.dependencies.get slot = some j → xs[j]? = ys[j]?) :
    node.outcome arith xs = node.outcome arith ys := by
  have hinput : ∀ slot, node.input xs slot = node.input ys slot := by
    intro slot
    unfold Node.input
    cases hslot : node.dependencies.get slot with
    | none => rfl
    | some j => simp only [h slot j hslot]
  unfold Node.outcome Node.inputs
  rw [hinput .left, hinput .right]

/-- There are as many outcomes as nodes. -/
@[simp] theorem TaskGraph.length_outcomes (arith : Arithmetic) (graph : TaskGraph) :
    (graph.outcomes arith).length = graph.size := by
  rw [outcomes, length_evaluate, List.length_nil, Nat.zero_add]
  rfl

/-- In a shaped graph the outcome of a node is computed from the outcomes of its dependencies. -/
theorem TaskGraph.Shaped.getElem?_outcomes {graph : TaskGraph} (h : graph.Shaped)
    (arith : Arithmetic) {i : Nat} {node : Node} (hi : graph.nodes[i]? = some node) :
    (graph.outcomes arith)[i]? = some (node.outcome arith (graph.outcomes arith)) := by
  have hown := getElem?_evaluate arith [] hi
  simp only [List.length_nil, Nat.zero_add] at hown
  rw [outcomes, hown]
  refine congrArg some (Node.outcome_congr fun slot j hj => ?_)
  exact List.getElem?_take_of_lt ((h.node i node hi).backward slot j hj)

/-- An operation looks at no slot but its own. -/
theorem calculate_congr (arith : Arithmetic) (op : Operation) {xs ys : Operands (Option Binary64)}
    (h : ∀ slot ∈ op.slots, xs.get slot = ys.get slot) :
    calculate arith op.symbol xs = calculate arith op.symbol ys := by
  have hleft : xs.left = ys.left := h .left (by cases op <;> decide)
  unfold calculate
  rw [Operation.ofSymbol?_symbol, hleft]
  by_cases hnegate : op = .negate
  · simp only [hnegate, if_true]
  · have hright : xs.right = ys.right := h .right (by revert hnegate; cases op <;> decide)
    rw [hright]

/-! ## What an evaluation says -/

/-- The outcomes of a graph are finite values; that of the root is its value. -/
structure TaskGraph.Evaluates (arith : Arithmetic) (graph : TaskGraph) (value : Binary64) :
    Prop where
  /-- The root has this value. -/
  root : (graph.outcomes arith)[graph.root]? = some (.ok value)
  /-- No node fails. -/
  finite : ∀ outcome ∈ graph.outcomes arith, ∃ v, outcome = .ok v ∧ v.isFinite = true

/-- A node of a graph fails with this error, though its dependencies have finite values. -/
structure TaskGraph.Fails (arith : Arithmetic) (graph : TaskGraph) (i : Nat) (node : Node)
    (error : String) : Prop where
  /-- The node lies at the position. -/
  node_eq : graph.nodes[i]? = some node
  /-- Its dependencies have finite values. -/
  dependencies : ∀ slot j, node.dependencies.get slot = some j →
    ∃ v, (graph.outcomes arith)[j]? = some (.ok v) ∧ v.isFinite = true
  /-- It has an error of its own, or its value is not finite. -/
  outcome : ((graph.outcomes arith)[i]?.bind Outcome.failure?) = some error

/-- A graph has one value. -/
theorem TaskGraph.Evaluates.unique {arith : Arithmetic} {graph : TaskGraph} {x y : Binary64}
    (hx : graph.Evaluates arith x) (hy : graph.Evaluates arith y) : x = y :=
  Except.ok.inj (Option.some.inj (hx.root.symm.trans hy.root))

/-! ## Reports -/

/-- A result is refused exactly when it is not finite. -/
theorem nonFiniteError_eq_none_iff (x : Binary64) :
    nonFiniteError x = none ↔ x.isFinite = true := by
  unfold nonFiniteError Binary64.isNaN Binary64.isInfinite Binary64.isFinite
  by_cases hexponent : x.exponentField = 2047
  · by_cases hfraction : x.fractionField = 0 <;> simp [hexponent, hfraction]
  · simp [hexponent]

/-- A graph that has a value does not fail. -/
theorem TaskGraph.Evaluates.not_fails {arith : Arithmetic} {graph : TaskGraph} {value : Binary64}
    (h : graph.Evaluates arith value) {i : Nat} {node : Node} {error : String} :
    ¬graph.Fails arith i node error := by
  intro hfails
  obtain ⟨outcome, houtcome, hfailure⟩ := Option.bind_eq_some_iff.mp hfails.outcome
  obtain ⟨v, rfl, hfinite⟩ := h.finite outcome (List.mem_of_getElem? houtcome)
  have hnone : nonFiniteError v = none := (nonFiniteError_eq_none_iff v).mpr hfinite
  rw [Outcome.failure?, hnone] at hfailure
  cases hfailure

/-- What is said of a result that is not finite is not empty. -/
theorem ne_empty_of_nonFiniteError {x : Binary64} {error : String}
    (h : nonFiniteError x = some error) : error ≠ "" := by
  unfold nonFiniteError at h
  split_ifs at h <;> cases h <;> decide

/-- A text that begins with another one is not empty if that is not. -/
theorem ne_empty_of_append {start text : String} (h : start ≠ "") (rest : String)
    (htext : text = start ++ rest) : text ≠ "" := by
  rintro rfl
  exact h (String.append_eq_empty_iff.mp htext.symm).1

/-- The sentence of an error is not empty. -/
theorem ComputeError.message_ne_empty (e : ComputeError) : e.message ≠ "" := by
  cases e with
  | divisionByZero => decide
  | missingOperand slot =>
    refine ne_empty_of_append (?_ : "operand " ≠ "") (toString slot ++ " is missing") ?_
    · decide
    · rw [← String.append_assoc]
      rfl
  | unknownOperation text =>
    refine ne_empty_of_append (?_ : "unknown operation: '" ≠ "") (text ++ "'") ?_
    · decide
    · rw [← String.append_assoc]
      rfl

/-- A report is of a result if it brings no error and the result is finite. -/
theorem Report.failureReason?_eq_none_iff (report : Report) :
    report.failureReason? = none ↔ report.error = "" ∧ report.result.isFinite = true := by
  unfold failureReason? isFailure
  rw [← nonFiniteError_eq_none_iff]
  by_cases hempty : report.error = "" <;> simp [hempty]

/-- A result that is accepted is finite. -/
theorem Report.isFinite_of_failureReason? {report : Report} (h : report.failureReason? = none) :
    report.result.isFinite = true := (report.failureReason?_eq_none_iff.mp h).2

/-- An error that is accepted is not empty. -/
theorem Report.ne_empty_of_failureReason? {report : Report} {error : String}
    (h : report.failureReason? = some error) : error ≠ "" := by
  unfold failureReason? at h
  split_ifs at h with hfailure
  · obtain rfl := Option.some.inj h
    simpa [isFailure] using hfailure
  · exact ne_empty_of_nonFiniteError h

/-- An honest report says which task it is about. -/
@[simp] theorem Report.id_ofAssignment (arith : Arithmetic) (a : Assignment) :
    (ofAssignment arith a).id = a.id := by
  unfold ofAssignment ofValue
  split
  · split <;> rfl
  · rfl

/-- The honest report belongs to the expression of the assignment. -/
@[simp] theorem Report.expressionId_ofAssignment (arith : Arithmetic) (a : Assignment) :
    (ofAssignment arith a).expressionId = a.expressionId := by
  unfold ofAssignment ofValue
  split
  · split <;> rfl
  · rfl

/-- An honest report fails the expression exactly when the outcome does, and for the same reason. -/
theorem Report.failureReason?_ofAssignment (arith : Arithmetic) (a : Assignment) :
    (ofAssignment arith a).failureReason? =
      Outcome.failure? (calculate arith a.operation a.args) := by
  unfold ofAssignment
  cases calculate arith a.operation a.args with
  | error e => simp [failureReason?, isFailure, failure, e.message_ne_empty, Outcome.failure?]
  | ok value =>
    unfold ofValue
    cases herror : nonFiniteError value with
    | none => simp [failureReason?, isFailure, success, Outcome.failure?, herror]
    | some error =>
      simp [failureReason?, isFailure, failure, ne_empty_of_nonFiniteError herror,
        Outcome.failure?, herror]

/-- An honest report of a result brings the result computed. -/
theorem Report.calculate_of_failureReason? {arith : Arithmetic} {a : Assignment}
    (h : (ofAssignment arith a).failureReason? = none) :
    calculate arith a.operation a.args = .ok (ofAssignment arith a).result := by
  rw [failureReason?_ofAssignment] at h
  unfold ofAssignment
  cases hvalue : calculate arith a.operation a.args with
  | error e => rw [hvalue] at h; cases h
  | ok value =>
    rw [hvalue] at h
    have hnone : nonFiniteError value = none := h
    simp [ofValue, hnone, success]

end Reckoner
