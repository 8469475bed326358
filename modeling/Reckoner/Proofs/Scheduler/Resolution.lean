import Reckoner.Proofs.Scheduler.Past

/-!
# Where operands come from

A task waits for tasks of its own expression that are stored before it, and takes over their results
as they were reported. A task that is handed out has all its operands, so nothing that the scheduler
is asked for fails for lack of one, and nothing but a division by zero goes wrong in computing it.
-/

namespace Reckoner

/-- With all its operands, an operation fails only as a division by zero. -/
theorem eq_divisionByZero_of_calculate {arith : Arithmetic} {op : Operation}
    {args : Operands (Option Binary64)} (hargs : ∀ slot ∈ op.slots, (args.get slot).isSome = true)
    {e : ComputeError} (h : calculate arith op.symbol args = .error e) : e = .divisionByZero := by
  have hleft : args.left.isSome = true := hargs .left (by cases op <;> decide)
  obtain ⟨a, ha⟩ := Option.isSome_iff_exists.mp hleft
  unfold calculate at h
  rw [Operation.ofSymbol?_symbol, ha] at h
  by_cases hnegate : op = .negate
  · simp only [hnegate, if_true] at h
    cases h
  · have hright : args.right.isSome = true := hargs .right (by revert hnegate; cases op <;> decide)
    obtain ⟨b, hb⟩ := Option.isSome_iff_exists.mp hright
    simp only [hnegate, if_false, hb] at h
    cases op with
    | divide =>
      simp only [Operation.apply] at h
      split_ifs at h
      exact (Except.error.inj h).symm
    | add | subtract | multiply | power | negate => cases h

/-! ## Stored tasks -/

namespace Task.Placed

variable {promise : Promise} {m : Memory} {t : Task} {e : Expression} {graph : TaskGraph}
  {base : TaskId} {i : Nat} {node : Node}

/-- The node is one of the graph. -/
theorem mem_nodes (h : t.Placed promise m e graph base i node) : node ∈ graph.nodes :=
  List.mem_of_getElem? h.node_eq

/-- A task waits for tasks of its expression that stand before it. -/
theorem exists_earlier (h : t.Placed promise m e graph base i node) {slot : Slot} {id : TaskId}
    (hid : t.dependencies.get slot = some id) :
    ∃ j, node.dependencies.get slot = some j ∧ id = base + j + 1 ∧
      ∃ d ∈ m.tasks, d.id = id ∧ d.expressionId = t.expressionId ∧ d.id < t.id := by
  rw [h.realizes.dependencies_eq] at hid
  obtain ⟨j, hj, rfl⟩ := Option.map_eq_some_iff.mp hid
  have hlt := (h.shaped.node i node h.node_eq).backward slot j hj
  have hsize : j < graph.nodes.length := Nat.lt_trans hlt h.lt_size
  obtain ⟨d, hd, howner, hrealizes⟩ := h.tasks.stored j _ (List.getElem?_eq_getElem hsize)
  have hbefore : ∀ base : Int, base + j + 1 < base + i + 1 := fun base => by omega
  refine ⟨j, hj, rfl, d, hd, hrealizes.id_eq, howner.trans h.id_eq, ?_⟩
  rw [hrealizes.id_eq, h.realizes.id_eq]
  exact hbefore base

/-- A filled slot with a dependency holds the result of the dependency. -/
theorem exists_completed (h : t.Placed promise m e graph base i node) (hm : m.Numbered)
    {slot : Slot} {id : TaskId} {value : Binary64} (hid : t.dependencies.get slot = some id)
    (hvalue : t.args.get slot = some value) :
    ∃ d ∈ m.tasks, d.id = id ∧ d.status = .completed ∧ d.result = some value := by
  obtain ⟨j, hj, rfl, -⟩ := h.exists_earlier hid
  obtain hliteral | ⟨j', hj', hresult⟩ := h.realizes.operand slot value hvalue
  · rw [(h.shaped.node i node h.node_eq).exclusive slot j hj] at hliteral
    cases hliteral
  · obtain rfl := Option.some.inj (hj.symm.trans hj')
    exact hm.result?_eq_some_iff.mp hresult

/-- A slot that the operation does not need stays empty and waits for nothing. -/
theorem eq_none_of_not_mem (h : t.Placed promise m e graph base i node) {slot : Slot}
    (hslot : slot ∉ t.operation.slots) :
    t.args.get slot = none ∧ t.dependencies.get slot = none := by
  rw [h.realizes.operation_eq] at hslot
  have hwaits : node.dependencies.get slot = none := by
    refine Option.eq_none_iff_forall_ne_some.mpr fun j hj => hslot ?_
    exact (h.shaped.node i node h.node_eq).needed slot j hj
  constructor
  · refine Option.eq_none_iff_forall_ne_some.mpr fun value hvalue => ?_
    obtain hliteral | ⟨j, hj, -⟩ := h.realizes.operand slot value hvalue
    · exact hslot (Formula.literal_of_compile h.compiled h.mem_nodes hliteral).1
    · rw [hwaits] at hj
      cases hj
  · rw [h.realizes.dependencies_eq, hwaits]
    rfl

end Task.Placed

namespace Course

variable {course : Course} {k : Nat}

/-! ## Whole courses -/

/-- A result has been reported for a task, and the report was applied. -/
def Accepted (course : Course) (k : Nat) (id : TaskId) (value : Binary64) : Prop :=
  ∃ l < k, ∃ report, course.Applies l report ∧ report.id = id ∧ report.failureReason? = none ∧
    report.result = value

/-- What holds of operands at a place of a course. -/
structure Resolves (course : Course) (k : Nat) : Prop where
  /-- A task waits for stored tasks of its own expression with smaller numbers. -/
  dependency : ∀ t ∈ (course.memory k).tasks, ∀ slot id, t.dependencies.get slot = some id →
    ∃ d ∈ (course.memory k).tasks, d.id = id ∧ d.expressionId = t.expressionId ∧ d.id < t.id
  /-- A filled slot with a dependency holds the result of that task as it was accepted. -/
  operand : ∀ t ∈ (course.memory k).tasks, ∀ slot id value, t.dependencies.get slot = some id →
    t.args.get slot = some value →
      (∃ d ∈ (course.memory k).tasks, d.id = id ∧ d.status = .completed ∧ d.result = some value) ∧
        course.Accepted k id value
  /-- A task that has been handed out has all its operands, and all that it waited for is
  completed. -/
  claimed : ∀ t ∈ (course.memory k).tasks, t.status ≠ .pending →
    (∀ slot ∈ t.operation.slots, (t.args.get slot).isSome = true) ∧
      ∀ slot id, t.dependencies.get slot = some id →
        ∃ d ∈ (course.memory k).tasks, d.id = id ∧ d.status = .completed
  /-- The right slot of a unary minus stays empty. -/
  negate : ∀ t ∈ (course.memory k).tasks, t.operation = .negate →
    t.args.right = none ∧ t.dependencies.right = none
  /-- Asking for a task never fails. -/
  reads : ∀ now, ∃ found, (Scheduler.readTask.run (Memory.store.handle now)
    (.of (course.memory k))).answer = .ok found
  /-- Taking a report never fails, whatever it says. -/
  completes : ∀ now report, ((Scheduler.completeTask report).run (Memory.store.handle now)
    (.of (course.memory k))).answer = .ok ()
  /-- Computing a task that is handed out goes wrong only as a division by zero. -/
  computes : ∀ now t, (Scheduler.readTask.run (Memory.store.handle now)
    (.of (course.memory k))).answer = .ok (some t) → ∀ arith e,
      calculate arith (Assignment.ofTask t).operation (Assignment.ofTask t).args = .error e →
        e = .divisionByZero

/-- What a completed task holds has been accepted. -/
theorem accepted_of_completed {d : Task} (hd : d ∈ (course.memory k).tasks)
    (hcompleted : d.status = .completed) {value : Binary64} (hvalue : d.result = some value) :
    course.Accepted k d.id value := by
  obtain ⟨l, hl, report, happlies, hid, hreason, hresult⟩ := exists_applies hd hcompleted
  exact ⟨l, hl, report, happlies, hid, hreason, Option.some.inj (hresult.symm.trans hvalue)⟩

/-- A task that would be handed out has all its operands. -/
theorem isSome_of_answer {now : Instant} {t : Task}
    (h : (Scheduler.readTask.run (Memory.store.handle now) (.of (course.memory k))).answer =
      .ok (some t)) : ∀ slot ∈ t.operation.slots, (t.args.get slot).isSome = true := by
  obtain ⟨events, hrun⟩ := Scheduler.readTask_run now (course.orderly k).joined
  rw [hrun] at h
  have hclaimed := Except.ok.inj h
  obtain hnone | ⟨u, hu, hclaims⟩ := Memory.claim_cases (course.numbered k)
  · rw [hnone] at hclaimed
    cases hclaimed
  · obtain rfl := Option.some.inj (hu.symm.trans hclaimed)
    exact hclaims.ready

/-- **Operands are resolved soundly, and nothing is missing.** At any place of any course, whatever
has been submitted, asked for and reported: a task waits only for earlier tasks of its expression; a
slot that was filled for a dependency holds the very number that was accepted as its result; a task
that has been handed out lacks no operand. So no call of the scheduler fails, and a worker who
computes what it is handed out meets no missing operand and no unknown operation. -/
theorem resolves (course : Course) (k : Nat) : course.Resolves k where
  dependency t ht slot id hid := by
    obtain ⟨_, _, _, _, _, hplaced⟩ := (course.orderly k).exists_placed ht
    obtain ⟨_, -, -, hearlier⟩ := hplaced.exists_earlier hid
    exact hearlier
  operand t ht slot id value hid hvalue := by
    obtain ⟨_, _, _, _, _, hplaced⟩ := (course.orderly k).exists_placed ht
    obtain ⟨d, hd, hdid, hcompleted, hresult⟩ :=
      hplaced.exists_completed (course.numbered k) hid hvalue
    exact ⟨⟨d, hd, hdid, hcompleted, hresult⟩, hdid ▸ accepted_of_completed hd hcompleted hresult⟩
  claimed t ht hclaimed := by
    obtain ⟨_, _, _, _, _, hplaced⟩ := (course.orderly k).exists_placed ht
    have hready := hplaced.realizes.ready hclaimed
    refine ⟨hready, fun slot id hid => ?_⟩
    have hslot : slot ∈ t.operation.slots := by
      by_contra hslot
      rw [(hplaced.eq_none_of_not_mem hslot).2] at hid
      cases hid
    obtain ⟨value, hvalue⟩ := Option.isSome_iff_exists.mp (hready slot hslot)
    obtain ⟨d, hd, hdid, hcompleted, -⟩ := hplaced.exists_completed (course.numbered k) hid hvalue
    exact ⟨d, hd, hdid, hcompleted⟩
  negate t ht hnegate := by
    obtain ⟨_, _, _, _, _, hplaced⟩ := (course.orderly k).exists_placed ht
    have hslot : Slot.right ∉ t.operation.slots := by
      rw [hnegate]
      decide
    exact hplaced.eq_none_of_not_mem hslot
  reads now := by
    obtain ⟨events, hrun⟩ := Scheduler.readTask_run now (course.orderly k).joined
    exact ⟨_, by rw [hrun]⟩
  completes now report := by
    obtain ⟨events, hrun⟩ := Scheduler.completeTask_run now (course.orderly k).joined report
    rw [hrun]
  computes now t hanswer arith e herror :=
    eq_divisionByZero_of_calculate (isSome_of_answer hanswer) herror

/-- In the sample the outer minus is handed out with the very number that was reported for the inner
one at place 5. -/
theorem resolves_sample :
    (∃ t ∈ (sample.memory 7).tasks, t.id = 2 ∧ t.status = .processing ∧
      t.dependencies.left = some 1 ∧ t.args.left = some ⟨0xc000000000000000⟩) ∧
      sample.Accepted 7 1 ⟨0xc000000000000000⟩ := by
  have hstored : ∃ t ∈ (sample.memory 7).tasks, t.id = 2 ∧ t.status = .processing ∧
      t.dependencies.left = some 1 ∧ t.args.left = some ⟨0xc000000000000000⟩ := by decide +kernel
  refine ⟨hstored, ?_⟩
  obtain ⟨t, ht, -, -, hid, hvalue⟩ := hstored
  exact ((resolves sample 7).operand t ht .left 1 _ hid hvalue).2

end Course

end Reckoner
