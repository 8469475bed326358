import Reckoner.Proofs.Scheduler.Preservation

/-!
# Storing a new expression

The tasks of a new expression are numbered on from the last number given out, one for each node of
its graph, and each of its dependencies names the task of the node it depends on.
-/

namespace Reckoner

/-! ## The new tasks -/

/-- A task that has just been stored for a node. -/
structure Task.Fresh (id : ExpressionId) (base : Int) (i : Nat) (node : Node) (t : Task) :
    Prop where
  id_eq : t.id = base + i + 1
  expressionId_eq : t.expressionId = id
  operation_eq : t.operation = node.operation
  args_eq : t.args = node.args
  dependencies_eq : ∀ slot,
    t.dependencies.get slot = (node.dependencies.get slot).map fun j : Nat => base + j + 1
  status_eq : t.status = .pending
  result_eq : t.result = none

/-- Every node has one task. -/
@[simp] theorem Task.length_ofNodes (id : ExpressionId) (ids : Array TaskId) (last : TaskId)
    (nodes : List Node) : (Task.ofNodes id ids last nodes).length = nodes.length := by
  induction nodes generalizing ids last with
  | nil => rfl
  | cons node nodes ih => simp [Task.ofNodes, ih]

/-- New tasks are numbered behind the last one, by at most as many as there are nodes. -/
theorem Task.bounds_ofNodes {id : ExpressionId} {ids : Array TaskId} {last : TaskId}
    {nodes : List Node} {t : Task} (ht : t ∈ Task.ofNodes id ids last nodes) :
    last < t.id ∧ t.id ≤ last + nodes.length := by
  induction nodes generalizing ids last with
  | nil => cases ht
  | cons node nodes ih =>
    rw [List.length_cons, Int.natCast_succ]
    rcases List.mem_cons.mp ht with rfl | ht
    · have hone : (1 : Int) ≤ nodes.length + 1 := by omega
      exact ⟨Int.lt_succ last, Int.add_le_add_left hone last⟩
    · obtain ⟨hlt, hle⟩ := ih ht
      exact ⟨Int.lt_trans (Int.lt_succ last) hlt, by rwa [Int.add_comm _ 1, ← Int.add_assoc]⟩

/-- New tasks are numbered in order. -/
theorem Task.pairwise_ofNodes (id : ExpressionId) (ids : Array TaskId) (last : TaskId)
    (nodes : List Node) : (Task.ofNodes id ids last nodes).Pairwise (·.id < ·.id) := by
  induction nodes generalizing ids last with
  | nil => exact .nil
  | cons node nodes ih => exact .cons (fun t ht => (Task.bounds_ofNodes ht).1) (ih ..)

/-- The tasks of shaped nodes behind others whose tasks are numbered from `base + 1` on. -/
theorem Task.fresh_ofNodes {id : ExpressionId} {base last : Int} {ids : Array TaskId}
    {nodes : List Node} (hlast : last = base + ids.size)
    (hids : ∀ j : Nat, j < ids.size → ids[j]? = some (base + j + 1))
    (hshaped : ∀ (k : Nat) (node : Node), nodes[k]? = some node → node.Shaped (ids.size + k))
    {k : Nat} {node : Node} (hk : nodes[k]? = some node) :
    ∃ t, (Task.ofNodes id ids last nodes)[k]? = some t ∧ t.Fresh id base (ids.size + k) node := by
  induction nodes generalizing ids last k with
  | nil => simp at hk
  | cons first rest ih =>
    cases k with
    | zero =>
      obtain rfl : first = node := by simpa using hk
      refine ⟨_, rfl, ⟨by rw [hlast]; rfl, rfl, rfl, rfl, fun slot => ?_, rfl, rfl⟩⟩
      rw [Operands.get_map]
      cases hslot : first.dependencies.get slot with
      | none => rfl
      | some j => exact hids j ((hshaped 0 first rfl).backward slot j hslot)
    | succ k =>
      have hsize : (ids.push (last + 1)).size = ids.size + 1 := Array.size_push _
      have hnext := @ih (last + 1) (ids.push (last + 1)) (by rw [hsize, hlast]; push_cast; omega)
        (fun j hj => ?_) (fun l other hother => ?_) k hk
      · rw [hsize, Nat.add_assoc, Nat.add_comm 1] at hnext
        exact hnext
      · rw [hsize] at hj
        by_cases hj' : j < ids.size
        · rw [Array.getElem?_push_lt hj', ← hids j hj', Array.getElem?_eq_getElem hj']
        · obtain rfl : j = ids.size := by omega
          rw [Array.getElem?_push_size, hlast]
      · rw [hsize, Nat.add_assoc, Nat.add_comm 1]
        exact hshaped (l + 1) other hother

/-- The tasks of a shaped graph. -/
theorem Task.fresh_ofGraph {graph : TaskGraph} (hshaped : graph.Shaped) (id : ExpressionId)
    (last : TaskId) {i : Nat} {node : Node} (hi : graph.nodes[i]? = some node) :
    ∃ t, (Task.ofGraph id last graph)[i]? = some t ∧ t.Fresh id last i node := by
  obtain ⟨t, ht, hfresh⟩ := @Task.fresh_ofNodes id last last #[] graph.nodes (by simp)
    (fun j hj => by simp at hj) (fun k other hother => by simpa using hshaped.node k other hother)
    i node hi
  exact ⟨t, ht, by simpa using hfresh⟩

/-- The new task at a position is that of the node there. -/
theorem Task.fresh_of_getElem? {graph : TaskGraph} (hshaped : graph.Shaped) {id : ExpressionId}
    {last : TaskId} {i : Nat} {t : Task} (ht : (Task.ofGraph id last graph)[i]? = some t) :
    ∃ node : Node, graph.nodes[i]? = some node ∧ t.Fresh id last i node := by
  have hlength : (Task.ofGraph id last graph).length = graph.nodes.length :=
    Task.length_ofNodes ..
  have hsize : i < graph.nodes.length := hlength ▸ (List.getElem?_eq_some_iff.mp ht).1
  obtain ⟨u, hu, hfresh⟩ := Task.fresh_ofGraph hshaped id last (List.getElem?_eq_getElem hsize)
  obtain rfl := Option.some.inj (ht.symm.trans hu)
  exact ⟨_, List.getElem?_eq_getElem hsize, hfresh⟩

/-- Every new task is that of a node. -/
theorem Task.exists_fresh {graph : TaskGraph} (hshaped : graph.Shaped) {id : ExpressionId}
    {last : TaskId} {t : Task} (ht : t ∈ Task.ofGraph id last graph) :
    ∃ (i : Nat) (node : Node), graph.nodes[i]? = some node ∧ t.Fresh id last i node := by
  obtain ⟨i, hi⟩ := List.mem_iff_getElem?.mp ht
  exact ⟨i, Task.fresh_of_getElem? hshaped hi⟩

/-- A new task stands for its node, whatever else is stored. -/
theorem Task.Fresh.realizes {id : ExpressionId} {base : TaskId} {i : Nat} {node : Node} {t : Task}
    (h : t.Fresh id base i node) (promise : Promise) (m : Memory) (graph : TaskGraph) :
    t.Realizes promise m graph base i node := by
  refine ⟨h.id_eq, h.operation_eq, h.dependencies_eq, fun slot value hvalue => ?_,
    fun slot value hvalue => ?_, fun hne => absurd h.status_eq hne, ?_, fun value hvalue => ?_⟩
  · rw [h.args_eq, hvalue]
  · exact Or.inl (h.args_eq ▸ hvalue)
  · simp [h.status_eq, h.result_eq]
  · rw [h.result_eq] at hvalue
    cases hvalue

/-! ## The memory with the new expression -/

namespace Memory

variable {promise : Promise} {m : Memory}

/-- Creating an expression keeps rows in order. -/
theorem Numbered.create (h : m.Numbered) (now : Instant) (userId : UserId) (formula : String)
    (graph : TaskGraph) : (m.create now userId formula graph).2.Numbered := by
  have hnew : ∀ t ∈ Task.ofGraph (m.lastExpression + 1) m.lastTask graph,
      m.lastTask < t.id ∧ t.id ≤ m.lastTask + graph.size := fun t ht => Task.bounds_ofNodes ht
  refine ⟨?_, ?_, fun t ht => ?_, fun e he => ?_⟩
  · refine List.pairwise_append.mpr ⟨h.tasks, Task.pairwise_ofNodes ..,
      fun s hs t ht => ?_⟩
    exact Int.lt_of_le_of_lt (h.task_le s hs) (hnew t ht).1
  · refine List.pairwise_append.mpr ⟨h.expressions, List.pairwise_singleton .., fun e he f hf => ?_⟩
    rw [List.mem_singleton.mp hf]
    exact Int.lt_add_one_of_le (h.expression_le e he)
  · rcases List.mem_append.mp ht with ht | ht
    · exact Int.le_trans (h.task_le t ht) (Int.le_add_of_nonneg_right (Int.natCast_nonneg _))
    · exact (hnew t ht).2
  · rcases List.mem_append.mp he with he | he
    · exact Int.le_trans (h.expression_le e he) (Int.le_of_lt (Int.lt_succ _))
    · rw [List.mem_singleton.mp he]
      exact Int.le_refl _

/-- Creating an expression keeps the invariant. -/
theorem Consistent.create (h : m.Consistent promise) (now : Instant) (userId : UserId)
    {formula : String} {graph : TaskGraph} (hgraph : Formula.compile formula = .ok graph) :
    (m.create now userId formula graph).2.Consistent promise := by
  have hshaped := Formula.shaped_of_compile hgraph
  have hnumbered := h.numbered.create now userId formula graph
  have hbelow : ∀ e ∈ m.expressions, e.id ≠ m.lastExpression + 1 := fun e he =>
    Int.ne_of_lt (Int.lt_add_one_of_le (h.numbered.expression_le e he))
  have hnew : ∀ t ∈ Task.ofGraph (m.lastExpression + 1) m.lastTask graph,
      t.expressionId = m.lastExpression + 1 := by
    intro t ht
    obtain ⟨_, _, _, hfresh⟩ := Task.exists_fresh hshaped ht
    exact hfresh.expressionId_eq
  refine ⟨hnumbered, fun e he => ?_, fun t ht => ?_⟩
  · rcases List.mem_append.mp he with hold | he
    · obtain ⟨graph', hgraph', hprogress⟩ := h.progress e hold
      refine ⟨graph', hgraph',
        progress_of_same h.numbered hnumbered hgraph' (fun t hid => ?_) hprogress⟩
      refine ⟨List.mem_append_left _, fun ht => (List.mem_append.mp ht).resolve_right fun ht => ?_⟩
      exact hbelow e hold (hid.symm.trans (hnew t ht))
    · obtain rfl := List.mem_singleton.mp he
      refine ⟨graph, hgraph, .unfinished m.lastTask rfl rfl rfl ⟨fun i node hi => ?_,
        fun t ht hid => ?_⟩⟩
      · obtain ⟨t, ht, hfresh⟩ := Task.fresh_ofGraph hshaped (m.lastExpression + 1) m.lastTask hi
        exact ⟨t, List.mem_append_right _ (List.mem_of_getElem? ht), hfresh.expressionId_eq,
          hfresh.realizes promise _ graph⟩
      · rcases List.mem_append.mp ht with ht | ht
        · obtain ⟨owner, howner, hownerId, -⟩ := h.owned t ht
          exact absurd (hownerId.trans hid) (hbelow owner howner)
        · obtain ⟨i, node, hi, hfresh⟩ := Task.exists_fresh hshaped ht
          exact ⟨i, (List.getElem?_eq_some_iff.mp hi).1, hfresh.id_eq⟩
  · rcases List.mem_append.mp ht with ht | ht
    · obtain ⟨owner, howner, hownerId, hstatus⟩ := h.owned t ht
      exact ⟨owner, List.mem_append_left _ howner, hownerId, hstatus⟩
    · exact ⟨_, List.mem_append_right _ (List.mem_singleton_self _), (hnew t ht).symm, rfl⟩

end Memory

end Reckoner
