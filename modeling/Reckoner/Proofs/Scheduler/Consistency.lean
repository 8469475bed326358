import Reckoner.Proofs.Formula.Shape
import Reckoner.Proofs.Scheduler.Report

/-!
# The invariant of the store in memory

Every unfinished expression has one stored task for each node of its graph, numbered in order. An
operand of such a task is a literal of its node or the result of the task behind the dependency, and
a task that has been claimed has all its operands. A `Promise` says what is known of the results and
errors that have been accepted; whatever the reports keep, the rows keep.
-/

namespace Reckoner

/-! ## The invariant -/

/-- What is known of accepted reports. -/
structure Promise where
  /-- What holds of the result of the node at a position of a graph. -/
  result : TaskGraph → Nat → Binary64 → Prop
  /-- What holds of the error of a formula with a graph. -/
  failure : TaskGraph → String → Prop

/-- A stored task stands for a node of a graph whose tasks are numbered from `base + 1` on. -/
structure Task.Realizes (promise : Promise) (m : Memory) (graph : TaskGraph) (base : TaskId)
    (i : Nat) (node : Node) (t : Task) : Prop where
  id_eq : t.id = base + i + 1
  operation_eq : t.operation = node.operation
  dependencies_eq : ∀ slot,
    t.dependencies.get slot = (node.dependencies.get slot).map fun j : Nat => base + j + 1
  /-- Literals are operands. -/
  literal : ∀ slot value, node.args.get slot = some value → t.args.get slot = some value
  /-- Operands are literals or results of dependencies. -/
  operand : ∀ slot value, t.args.get slot = some value → node.args.get slot = some value ∨
    ∃ j, node.dependencies.get slot = some j ∧ m.result? (base + j + 1) = some value
  /-- A claimed task has all its operands. -/
  ready : t.status ≠ .pending → ∀ slot ∈ t.operation.slots, (t.args.get slot).isSome = true
  /-- Exactly the completed tasks have results. -/
  settled : t.status = .completed ↔ t.result.isSome = true
  /-- A result has been accepted. -/
  result : ∀ value, t.result = some value → value.isFinite = true ∧ promise.result graph i value

/-- The stored tasks of an expression are those of its graph. -/
structure Evaluating (promise : Promise) (m : Memory) (id : ExpressionId) (graph : TaskGraph)
    (base : TaskId) : Prop where
  /-- Every node has a task. -/
  stored : ∀ (i : Nat) (node : Node), graph.nodes[i]? = some node →
    ∃ t ∈ m.tasks, t.expressionId = id ∧ t.Realizes promise m graph base i node
  /-- There are no other tasks. -/
  numbered : ∀ t ∈ m.tasks, t.expressionId = id → ∃ i : Nat, i < graph.size ∧ t.id = base + i + 1

/-- How far an expression with a given graph has come. -/
inductive Expression.Progress (promise : Promise) (m : Memory) (e : Expression)
    (graph : TaskGraph) : Prop
  /-- Some tasks are not completed. -/
  | unfinished (base : TaskId) (hstatus : e.status.isTerminal = false) (hresult : e.result = none)
    (herror : e.error = "") (htasks : Evaluating promise m e.id graph base)
  /-- Every task has had a result; that of the root is the value. -/
  | completed (value : Binary64) (hstatus : e.status = .completed) (hresult : e.result = some value)
    (herror : e.error = "") (hfinite : value.isFinite = true)
    (hroot : promise.result graph graph.root value)
    (hall : ∀ i < graph.size, ∃ value, value.isFinite = true ∧ promise.result graph i value)
  /-- A task has failed. -/
  | failed (hstatus : e.status = .error) (hresult : e.result = none) (herror : e.error ≠ "")
    (hfailure : promise.failure graph e.error)

namespace Memory

/-- The invariant of the store in memory. -/
structure Consistent (promise : Promise) (m : Memory) : Prop where
  /-- Rows lie in the order of their numbers. -/
  numbered : m.Numbered
  /-- Every expression has a graph and has come so far. -/
  progress : ∀ e ∈ m.expressions, ∃ graph, Formula.compile e.formula = .ok graph ∧
    e.Progress promise m graph
  /-- Every task belongs to an unfinished expression. -/
  owned : ∀ t ∈ m.tasks, ∃ e ∈ m.expressions, e.id = t.expressionId ∧ e.status.isTerminal = false

/-- Nothing is stored at first. -/
theorem Consistent.empty (promise : Promise) : Memory.empty.Consistent promise :=
  ⟨⟨.nil, .nil, fun _ h => absurd h List.not_mem_nil, fun _ h => absurd h List.not_mem_nil⟩,
    fun _ h => absurd h List.not_mem_nil, fun _ h => absurd h List.not_mem_nil⟩

end Memory

/-! ## What the invariant says of a task -/

/-- Numbers from a base on tell positions apart. -/
theorem position_eq {base : Int} {i j : Nat} (h : base + i + 1 = base + j + 1) : i = j := by omega

variable {promise : Promise} {m n : Memory}

/-- What a task stands for does not change while results stay. -/
theorem Task.Realizes.mono {graph : TaskGraph} {base : TaskId} {i : Nat} {node : Node} {t : Task}
    (h : t.Realizes promise m graph base i node)
    (hresults : ∀ (j : Nat) value, j < graph.size → m.result? (base + j + 1) = some value →
      n.result? (base + j + 1) = some value)
    (hshaped : graph.Shaped) (hi : graph.nodes[i]? = some node) :
    t.Realizes promise n graph base i node := by
  refine ⟨h.id_eq, h.operation_eq, h.dependencies_eq, h.literal, fun slot value hvalue => ?_,
    h.ready, h.settled, h.result⟩
  obtain hliteral | ⟨j, hj, hresult⟩ := h.operand slot value hvalue
  · exact Or.inl hliteral
  · have hlt : j < i := (hshaped.node i node hi).backward slot j hj
    have hsize : i < graph.size := (List.getElem?_eq_some_iff.mp hi).1
    exact Or.inr ⟨j, hj, hresults j value (by omega) hresult⟩

/-- A claimed task has the result of each dependency of its node. -/
theorem Task.Realizes.exists_result {graph : TaskGraph} {base : TaskId} {i : Nat} {node : Node}
    {t : Task} (h : t.Realizes promise m graph base i node) (hshaped : node.Shaped i)
    (hclaimed : t.status ≠ .pending) {slot : Slot} {j : Nat}
    (hj : node.dependencies.get slot = some j) :
    ∃ value, t.args.get slot = some value ∧ m.result? (base + j + 1) = some value := by
  have hneeded := hshaped.needed slot j hj
  rw [← h.operation_eq] at hneeded
  obtain ⟨value, hvalue⟩ := Option.isSome_iff_exists.mp (h.ready hclaimed slot hneeded)
  obtain hliteral | ⟨k, hk, hresult⟩ := h.operand slot value hvalue
  · rw [hshaped.exclusive slot j hj] at hliteral
    cases hliteral
  · obtain rfl := Option.some.inj (hj.symm.trans hk)
    exact ⟨value, hvalue, hresult⟩

/-- A result lies with a completed task. -/
theorem Memory.Numbered.result?_eq_some_iff (h : m.Numbered) {id : TaskId} {value : Binary64} :
    m.result? id = some value ↔
      ∃ t ∈ m.tasks, t.id = id ∧ t.status = .completed ∧ t.result = some value := by
  unfold Memory.result?
  rw [Option.bind_eq_some_iff]
  constructor
  · rintro ⟨t, ht, hvalue⟩
    obtain ⟨hmem, hid⟩ := h.task?_eq_some_iff.mp ht
    split_ifs at hvalue with hstatus
    exact ⟨t, hmem, hid, hstatus, hvalue⟩
  · rintro ⟨t, hmem, hid, hstatus, hvalue⟩
    exact ⟨t, h.task?_eq_some_iff.mpr ⟨hmem, hid⟩, by rw [if_pos hstatus, hvalue]⟩

/-- A task of an expression stands for one of the nodes. -/
theorem Evaluating.exists_node (h : m.Numbered) {id : ExpressionId} {graph : TaskGraph}
    {base : TaskId} (htasks : Evaluating promise m id graph base) {t : Task} (ht : t ∈ m.tasks)
    (hid : t.expressionId = id) :
    ∃ i node, graph.nodes[i]? = some node ∧ t.Realizes promise m graph base i node := by
  obtain ⟨i, hi, hnumber⟩ := htasks.numbered t ht hid
  have hnode : graph.nodes[i]? = some (graph.nodes[i]) := List.getElem?_eq_getElem hi
  obtain ⟨u, hu, -, hrealizes⟩ := htasks.stored i _ hnode
  obtain rfl := h.eq_of_id_eq ht hu (hnumber.trans hrealizes.id_eq.symm)
  exact ⟨i, _, hnode, hrealizes⟩

/-- Where a stored task stands: for a node of the graph of an unfinished expression. -/
structure Task.Placed (promise : Promise) (m : Memory) (t : Task) (e : Expression)
    (graph : TaskGraph) (base : TaskId) (i : Nat) (node : Node) : Prop where
  mem : e ∈ m.expressions
  id_eq : e.id = t.expressionId
  compiled : Formula.compile e.formula = .ok graph
  unfinished : e.status.isTerminal = false
  result_eq : e.result = none
  error_eq : e.error = ""
  tasks : Evaluating promise m e.id graph base
  node_eq : graph.nodes[i]? = some node
  realizes : t.Realizes promise m graph base i node

namespace Task.Placed

variable {t : Task} {e : Expression} {graph : TaskGraph} {base : TaskId} {i : Nat} {node : Node}

/-- The graph is that of a formula. -/
theorem shaped (h : t.Placed promise m e graph base i node) : graph.Shaped :=
  Formula.shaped_of_compile h.compiled

/-- The node is one of the graph. -/
theorem lt_size (h : t.Placed promise m e graph base i node) : i < graph.size :=
  (List.getElem?_eq_some_iff.mp h.node_eq).1

/-- The task behind a dependency stands for an earlier node. -/
theorem exists_dependency (h : t.Placed promise m e graph base i node) {slot : Slot} {j : Nat}
    (hj : node.dependencies.get slot = some j) :
    ∃ d ∈ m.tasks, ∃ other, graph.nodes[j]? = some other ∧
      d.Realizes promise m graph base j other := by
  have hlt := (h.shaped.node i node h.node_eq).backward slot j hj
  have hsize : j < graph.nodes.length := Nat.lt_trans hlt h.lt_size
  have hnode : graph.nodes[j]? = some graph.nodes[j] := List.getElem?_eq_getElem hsize
  obtain ⟨d, hd, -, hrealizes⟩ := h.tasks.stored j _ hnode
  exact ⟨d, hd, _, hnode, hrealizes⟩

/-- A result of the same expression has been accepted. -/
theorem accepted (h : t.Placed promise m e graph base i node) (hm : m.Numbered) {j : Nat}
    (hj : j < graph.size) {value : Binary64} (hresult : m.result? (base + j + 1) = some value) :
    value.isFinite = true ∧ promise.result graph j value := by
  obtain ⟨u, hu, hid, -, hvalue⟩ := hm.result?_eq_some_iff.mp hresult
  obtain ⟨d, hd, -, hrealizes⟩ := h.tasks.stored j _ (List.getElem?_eq_getElem hj)
  obtain rfl := hm.eq_of_id_eq hu hd (hid.trans hrealizes.id_eq.symm)
  exact hrealizes.result value hvalue

end Task.Placed

namespace Memory.Consistent

/-- Every stored task stands somewhere. -/
theorem exists_placed (h : m.Consistent promise) {t : Task} (ht : t ∈ m.tasks) :
    ∃ e graph base i node, t.Placed promise m e graph base i node := by
  obtain ⟨e, he, hid, hstatus⟩ := h.owned t ht
  obtain ⟨graph, hgraph, hprogress⟩ := h.progress e he
  cases hprogress with
  | unfinished base _ hresult herror htasks =>
    obtain ⟨i, node, hi, hrealizes⟩ := htasks.exists_node h.numbered ht hid.symm
    exact ⟨e, graph, base, i, node, he, hid, hgraph, hstatus, hresult, herror, htasks, hi,
      hrealizes⟩
  | completed value hcompleted =>
    rw [hcompleted] at hstatus
    cases hstatus
  | failed hfailed =>
    rw [hfailed] at hstatus
    cases hstatus

/-- On consistent rows no call fails. -/
theorem joined (h : m.Consistent promise) : m.Joined := by
  refine ⟨h.numbered, fun t ht hcompleted => ?_, fun t ht slot hslot hnone => ?_, fun t ht => ?_⟩
  · obtain ⟨_, _, _, _, _, hplaced⟩ := h.exists_placed ht
    exact hplaced.realizes.settled.mp hcompleted
  · obtain ⟨_, graph, base, i, node, hplaced⟩ := h.exists_placed ht
    have hliteral : node.args.get slot = none := by
      cases hliteral : node.args.get slot with
      | none => rfl
      | some value =>
        rw [hplaced.realizes.literal slot value hliteral] at hnone
        cases hnone
    rw [hplaced.realizes.operation_eq] at hslot
    obtain ⟨j, hj⟩ := (hplaced.shaped.node i node hplaced.node_eq).supplied slot hslot hliteral
    obtain ⟨d, hd, _, -, hrealizes⟩ := hplaced.exists_dependency hj
    refine ⟨d, hd, ?_⟩
    rw [hplaced.realizes.dependencies_eq, hj, hrealizes.id_eq]
    rfl
  · obtain ⟨e, he, hid, -⟩ := h.owned t ht
    exact ⟨e, he, hid⟩

end Memory.Consistent

end Reckoner
