import Mathlib.Data.List.GetD
import Mathlib.Data.List.Nodup
import Mathlib.Data.List.Perm.Subperm
import Reckoner.Proofs.Scheduler.FirstFit

/-!
# No deadlock

When no task is ready, every unfinished expression has a task that some worker still works on: the
first of its tasks that is not completed has all its operands. So workers that report on whatever
they were handed out before they ask again come to an end, after at most as many rounds as there are
tasks, with every expression finished.
-/

namespace Reckoner

/-! ## Blocked tasks -/

namespace Memory

variable {m : Memory}

/-- When no task is claimed, every pending task waits for a result. -/
theorem exists_missing_of_claim (h : m.Numbered) (hnone : m.claim.1 = none) {t : Task}
    (ht : t ∈ m.tasks) (hpending : t.status = .pending) :
    ∃ slot ∈ t.operation.slots, t.args.get slot = none ∧
      (t.dependencies.get slot).bind m.result? = none := by
  obtain ⟨-, hmissing⟩ | ⟨_, _, _, -, -, -, hclaim⟩ := h.claim_passed
  · exact exists_missing_of_fill (hmissing t ht hpending)
  · rw [hclaim] at hnone
    cases hnone

end Memory

/-- A completed task that stands for a node has a result. -/
theorem Task.Realizes.exists_result_of_completed {promise : Promise} {m : Memory}
    {graph : TaskGraph} {base : TaskId} {i : Nat} {node : Node} {t : Task}
    (h : t.Realizes promise m graph base i node) (hm : m.Numbered) (ht : t ∈ m.tasks)
    (hcompleted : t.status = .completed) : ∃ value, m.result? (base + i + 1) = some value := by
  obtain ⟨value, hvalue⟩ := Option.isSome_iff_exists.mp (h.settled.mp hcompleted)
  exact ⟨value, hm.result?_eq_some_iff.mpr ⟨t, ht, h.id_eq, hcompleted, hvalue⟩⟩

/-- When no task is ready and none is being worked on, all are completed: a task whose dependencies
are completed waits for nothing. -/
theorem Evaluating.completed_of_idle {promise : Promise} {m : Memory} {id : ExpressionId}
    {graph : TaskGraph} {base : TaskId} (h : Evaluating promise m id graph base) (hm : m.Numbered)
    (hshaped : graph.Shaped) (hnone : m.claim.1 = none)
    (hidle : ∀ t ∈ m.tasks, t.expressionId = id → t.status ≠ .processing) :
    ∀ t ∈ m.tasks, t.expressionId = id → t.status = .completed := by
  -- Upwards: dependencies point backwards, so those of the task at `i` are completed already.
  have hup : ∀ (i : Nat) (node : Node), graph.nodes[i]? = some node →
      ∃ t ∈ m.tasks, t.Realizes promise m graph base i node ∧ t.status = .completed := by
    intro i
    induction i using Nat.strong_induction_on with
    | _ i ih =>
      intro node hnode
      obtain ⟨t, ht, hid, hrealizes⟩ := h.stored i node hnode
      have hnodeShaped := hshaped.node i node hnode
      refine ⟨t, ht, hrealizes, ?_⟩
      cases hstatus : t.status with
      | completed => rfl
      | processing => exact absurd hstatus (hidle t ht hid)
      | pending =>
        obtain ⟨slot, hslot, harg, hmissing⟩ := Memory.exists_missing_of_claim hm hnone ht hstatus
        have hliteral : node.args.get slot = none := by
          by_contra hsome
          obtain ⟨value, hvalue⟩ := Option.ne_none_iff_exists'.mp hsome
          rw [hrealizes.literal slot value hvalue] at harg
          cases harg
        obtain ⟨j, hj⟩ := hnodeShaped.supplied slot (hrealizes.operation_eq ▸ hslot) hliteral
        have hlt := hnodeShaped.backward slot j hj
        have hsize : i < graph.nodes.length := (List.getElem?_eq_some_iff.mp hnode).1
        obtain ⟨d, hd, hdrealizes, hdone⟩ :=
          ih j hlt _ (List.getElem?_eq_getElem (Nat.lt_trans hlt hsize))
        obtain ⟨value, hvalue⟩ := hdrealizes.exists_result_of_completed hm hd hdone
        rw [hrealizes.dependencies_eq, hj, Option.map_some, Option.bind_some, hvalue] at hmissing
        cases hmissing
  intro t ht hid
  obtain ⟨i, node, hnode, hrealizes⟩ := h.exists_node hm ht hid
  obtain ⟨u, hu, hurealizes, hcompleted⟩ := hup i node hnode
  obtain rfl := hm.eq_of_id_eq ht hu (hrealizes.id_eq.trans hurealizes.id_eq.symm)
  exact hcompleted

/-- When no task is ready, some worker still works on a task of every unfinished expression. -/
theorem Memory.Orderly.exists_processing {m : Memory} (h : m.Orderly) (hnone : m.claim.1 = none)
    {e : Expression} (he : e ∈ m.expressions) (hopen : e.status.isTerminal = false) :
    ∃ t ∈ m.tasks, t.expressionId = e.id ∧ t.status = .processing := by
  by_contra hidle
  push Not at hidle
  obtain ⟨t, ht, howner, hstatus⟩ := h.unfinished e he hopen
  obtain ⟨graph, hgraph, hprogress⟩ := h.progress e he
  cases hprogress with
  | unfinished base _ _ _ htasks =>
    exact hstatus (htasks.completed_of_idle h.numbered (Formula.shaped_of_compile hgraph) hnone
      hidle t ht howner)
  | completed value hterminal | failed hterminal =>
    rw [hterminal] at hopen
    cases hopen

namespace Course

variable {course : Course} {k : Nat}

/-! ## Rounds -/

/-- No worker works on a task. -/
def Idle (course : Course) (k : Nat) : Prop :=
  ∀ t ∈ (course.memory k).tasks, t.status ≠ .processing

/-- The numbers of the tasks that have not been handed out. -/
def backlog (course : Course) (k : Nat) : List TaskId :=
  ((course.memory k).tasks.filter (·.status == .pending)).map (·.id)

/-- A number in the backlog is that of a pending task. -/
theorem mem_backlog {id : TaskId} :
    id ∈ course.backlog k ↔ ∃ t ∈ (course.memory k).tasks, t.status = .pending ∧ t.id = id := by
  simp [backlog, and_assoc]

/-- Every number is once in the backlog. -/
theorem nodup_backlog (course : Course) (k : Nat) : (course.backlog k).Nodup :=
  (List.pairwise_map.mpr ((course.numbered k).tasks.filter _)).nodup

/-- There are no more pending tasks than tasks. -/
theorem length_backlog_le (course : Course) (k : Nat) :
    (course.backlog k).length ≤ (course.memory k).tasks.length := by
  rw [backlog, List.length_map]
  exact List.length_filter_le ..

/-- A pending task was pending before, unless it is new. -/
theorem pending_source {u : Task} (hu : u ∈ (course.memory (k + 1)).tasks)
    (hpending : u.status = .pending) :
    u.id ∈ course.backlog k ∨ ∃ e graph, course.Creates k e graph := by
  obtain ⟨s, hs, hturn⟩ | ⟨e, graph, hcreates, -⟩ := task_source hu
  · refine Or.inl (mem_backlog.mpr ⟨s, hs, ?_, hturn.grows.id_eq.symm⟩)
    cases hturn with
    | stays hstays => exact hstays.status_eq.symm.trans hpending
    | claimed _ hbefore => exact hbefore
    | completed _ _ _ _ _ hafter =>
      rw [hafter] at hpending
      cases hpending
  · exact Or.inr ⟨e, graph, hcreates⟩

/-- A task that is worked on was worked on before, unless it has just been handed out. -/
theorem processing_source {u : Task} (hu : u ∈ (course.memory (k + 1)).tasks)
    (hprocessing : u.status = .processing) :
    (∃ s ∈ (course.memory k).tasks, s.status = .processing ∧ s.id = u.id) ∨
      course.HandsOut k u := by
  obtain ⟨s, hs, hturn⟩ | ⟨e, graph, hcreates, hnew⟩ := task_source hu
  · cases hturn with
    | stays hstays =>
      exact Or.inl ⟨s, hs, hstays.status_eq.symm.trans hprocessing, hstays.id_eq.symm⟩
    | claimed hout => exact Or.inr hout
    | completed _ _ _ _ _ hafter =>
      rw [hafter] at hprocessing
      cases hprocessing
  · rw [hcreates.pending hnew] at hprocessing
    cases hprocessing

/-- A round: a task is handed out while no other one is worked on, and the next call reports on
it. -/
structure Round (course : Course) (k : Nat) (t : Task) (report : Report) : Prop where
  idle : course.Idle k
  handsOut : course.HandsOut k t
  step_eq : course.step (k + 1) = .complete report
  id_eq : report.id = t.id

namespace Round

variable {t : Task} {report : Report}

/-- The report is applied. -/
theorem applies (h : course.Round k t report) : course.Applies (k + 1) report := by
  have hclaims := h.handsOut.claims
  exact applies_of_awaiting? h.step_eq ((course.orderly (k + 1)).awaiting?_eq_some hclaims.mem
    hclaims.status_eq h.id_eq.symm)

/-- Behind a round no task is worked on. -/
theorem idle_next (h : course.Round k t report) : course.Idle (k + 2) := by
  intro u hu hprocessing
  -- Only the task of the round was worked on in between, and the report completes it.
  obtain ⟨s, hs, hsprocessing, hid⟩ | hagain := processing_source hu hprocessing
  · obtain ⟨r, hr, hrprocessing, -⟩ | hout := processing_source hs hsprocessing
    · exact h.idle r hr hrprocessing
    · have hst : s = t := Option.some.inj (hout.claim_eq.symm.trans h.handsOut.claim_eq)
      rw [h.applies.completed (Nat.lt_succ_self _) hu (by rw [← hid, hst, h.id_eq])] at hprocessing
      cases hprocessing
  · cases hagain.1.symm.trans h.step_eq

/-- A round takes its task from the backlog. -/
theorem length_backlog_lt (h : course.Round k t report) :
    (course.backlog (k + 2)).length < (course.backlog k).length := by
  have hkept : ∀ id ∈ course.backlog (k + 2), id ∈ course.backlog k := by
    intro id hmem
    obtain ⟨u, hu, hpending, rfl⟩ := mem_backlog.mp hmem
    obtain hmid | ⟨_, _, hcreates⟩ := pending_source hu hpending
    · obtain ⟨s, hs, hspending, hid⟩ := mem_backlog.mp hmid
      obtain hbefore | ⟨_, _, hcreates⟩ := pending_source hs hspending
      · exact hid ▸ hbefore
      · cases hcreates.step_eq.symm.trans h.handsOut.1
    · cases hcreates.step_eq.symm.trans h.step_eq
  have htaken : t.id ∉ course.backlog (k + 2) := by
    intro hmem
    obtain ⟨u, hu, hpending, hid⟩ := mem_backlog.mp hmem
    exact h.handsOut.ne_pending (by omega) hu hid hpending
  have hthere : t.id ∈ course.backlog k := by
    obtain ⟨s, hs, hpending, hgrows⟩ := h.handsOut.claims.source
    exact mem_backlog.mpr ⟨s, hs, hpending, hgrows.id_eq.symm⟩
  have hsub : t.id :: course.backlog (k + 2) ⊆ course.backlog k :=
    List.cons_subset.mpr ⟨hthere, hkept⟩
  exact (List.subperm_of_subset (List.nodup_cons.mpr ⟨htaken, course.nodup_backlog _⟩)
    hsub).length_le

end Round

/-! ## Draining -/

/-- From a place on, a worker asks for tasks and reports on each one, by whatever report, before it
asks again, as long as there are any. -/
structure Drains (course : Course) (k : Nat) : Prop where
  /-- Every other call asks for a task, as long as all of these have got one. -/
  reads : ∀ i, (∀ l < i, ∃ t, course.HandsOut (k + 2 * l) t) → course.step (k + 2 * i) = .read
  /-- The calls in between report on the task handed out before. -/
  reports : ∀ i, (∀ l < i, ∃ t, course.HandsOut (k + 2 * l) t) →
    ∀ t, course.HandsOut (k + 2 * i) t →
      ∃ report, course.step (k + 2 * i + 1) = .complete report ∧ report.id = t.id

/-- Behind a first round the others are as they were. -/
theorem Drains.next (h : course.Drains k) {t : Task} (hout : course.HandsOut k t) :
    course.Drains (k + 2) := by
  have hplace : ∀ l, k + 2 + 2 * l = k + 2 * (l + 1) := fun l => by omega
  have hbefore : ∀ i, (∀ l < i, ∃ t, course.HandsOut (k + 2 + 2 * l) t) →
      ∀ l < i + 1, ∃ t, course.HandsOut (k + 2 * l) t := by
    intro i hi l hl
    cases l with
    | zero => exact ⟨t, hout⟩
    | succ l => exact hplace l ▸ hi l (Nat.lt_of_succ_lt_succ hl)
  refine ⟨fun i hi => ?_, fun i hi u hu => ?_⟩
  · rw [hplace]
    exact h.reads (i + 1) (hbefore i hi)
  · rw [hplace] at hu ⊢
    exact h.reports (i + 1) (hbefore i hi) u hu

/-- While no task is worked on, draining takes at most as many rounds as there are pending
tasks. -/
theorem Drains.exists_end (hdrains : course.Drains k) (hidle : course.Idle k) :
    ∃ n ≤ (course.backlog k).length, (∀ i < n, ∃ t, course.HandsOut (k + 2 * i) t) ∧
      course.step (k + 2 * n) = .read ∧ course.answer (k + 2 * n) = .ok none ∧
      course.Idle (k + 2 * n) := by
  induction hlength : (course.backlog k).length using Nat.strong_induction_on generalizing k with
  | _ length ih =>
    have hread := hdrains.reads 0 (fun l hl => absurd hl (Nat.not_lt_zero l))
    have hanswer := course.answer_eq k
    cases hclaim : (course.memory k).claim.1 with
    | none =>
      rw [hclaim] at hanswer
      exact ⟨0, Nat.zero_le _, fun i hi => absurd hi (Nat.not_lt_zero i), hread, hanswer, hidle⟩
    | some t =>
      rw [hclaim] at hanswer
      have hout : course.HandsOut k t := ⟨hread, hanswer⟩
      obtain ⟨report, hstep, hid⟩ :=
        hdrains.reports 0 (fun l hl => absurd hl (Nat.not_lt_zero l)) t hout
      have hround : course.Round k t report := ⟨hidle, hout, hstep, hid⟩
      have hlt := hround.length_backlog_lt
      obtain ⟨n, hn, hrounds, hend⟩ :=
        ih _ (hlength ▸ hlt) (hdrains.next hout) hround.idle_next rfl
      have hplace : ∀ l, k + 2 + 2 * l = k + 2 * (l + 1) := fun l => by omega
      refine ⟨n + 1, by omega, fun i hi => ?_, hplace n ▸ hend⟩
      cases i with
      | zero => exact ⟨t, hout⟩
      | succ i => exact hplace i ▸ hrounds i (Nat.lt_of_succ_lt_succ hi)

/-- **There is no deadlock, and work comes to an end.** At any place of any course, when no task can
be handed out, each unfinished expression has a task that some worker works on. And whenever no task
is worked on, workers that report on each task before they ask for another one, by whatever reports,
are handed out at most as many tasks as are stored; then no task is left, and every expression is
finished. -/
theorem no_deadlock_and_draining (course : Course) :
    (∀ k, course.answer k = .ok none → ∀ e ∈ (course.memory k).expressions,
      e.status.isTerminal = false →
        ∃ t ∈ (course.memory k).tasks, t.expressionId = e.id ∧ t.status = .processing) ∧
    ∀ k, course.Idle k → course.Drains k → ∃ n ≤ (course.memory k).tasks.length,
      (∀ i < n, ∃ t, course.HandsOut (k + 2 * i) t) ∧
      course.step (k + 2 * n) = .read ∧ course.answer (k + 2 * n) = .ok none ∧
      (course.memory (k + 2 * n)).tasks = [] ∧
      ∀ e ∈ (course.memory (k + 2 * n)).expressions, e.status.isTerminal = true := by
  have hworks : ∀ k, course.answer k = .ok none → ∀ e ∈ (course.memory k).expressions,
      e.status.isTerminal = false →
        ∃ t ∈ (course.memory k).tasks, t.expressionId = e.id ∧ t.status = .processing := by
    intro k hanswer e he hopen
    rw [course.answer_eq] at hanswer
    exact (course.orderly k).exists_processing (Except.ok.inj hanswer) he hopen
  refine ⟨hworks, fun k hidle hdrains => ?_⟩
  obtain ⟨n, hn, hrounds, hread, hanswer, hend⟩ := hdrains.exists_end hidle
  have hfinished : ∀ e ∈ (course.memory (k + 2 * n)).expressions, e.status.isTerminal = true := by
    intro e he
    by_contra hopen
    obtain ⟨t, ht, -, hprocessing⟩ := hworks _ hanswer e he (Bool.eq_false_iff.mpr hopen)
    exact hend t ht hprocessing
  refine ⟨n, Nat.le_trans hn (course.length_backlog_le k), hrounds, hread, hanswer, ?_, hfinished⟩
  refine List.eq_nil_iff_forall_not_mem.mpr fun t ht => ?_
  obtain ⟨e, he, -, hopen⟩ := (course.orderly _).owned t ht
  rw [hfinished e he] at hopen
  cases hopen

/-- From place 4 on the sample asks for tasks and reports on each one. -/
theorem drains_sample : sample.Drains 4 := by
  have hid : ∀ {k t}, sample.HandsOut k t →
      (sample.memory k).claim.1.map (·.id) = some t.id := fun hout => by
    rw [hout.claim_eq, Option.map_some]
  have hend : ∀ t, ¬ sample.HandsOut 10 t := fun t hout => by
    have hnone : (sample.memory 10).claim.1 = none := by decide +kernel
    cases hnone.symm.trans hout.claim_eq
  refine ⟨fun i _ => ?_, fun i hbefore t hout => ?_⟩
  · match i with
    | 0 | 1 | 2 | 3 => rfl
    | i + 4 =>
      refine List.getD_eq_default _ _ ?_
      simp only [List.length_cons, List.length_nil]
      omega
  · match i with
    | 0 =>
      have hfirst : (sample.memory 4).claim.1.map (·.id) = some 1 := by decide +kernel
      exact ⟨_, rfl, Option.some.inj (hfirst.symm.trans (hid hout))⟩
    | 1 =>
      have hsecond : (sample.memory 6).claim.1.map (·.id) = some 2 := by decide +kernel
      exact ⟨_, rfl, Option.some.inj (hsecond.symm.trans (hid hout))⟩
    | 2 =>
      have hthird : (sample.memory 8).claim.1.map (·.id) = some 3 := by decide +kernel
      exact ⟨_, rfl, Option.some.inj (hthird.symm.trans (hid hout))⟩
    | 3 => exact absurd hout (hend t)
    | i + 4 =>
      obtain ⟨u, hu⟩ := hbefore 3 (by omega)
      exact absurd hu (hend u)

/-- In the sample three tasks are stored at place 4, and after at most three rounds none is left. -/
theorem no_deadlock_and_draining_sample :
    sample.Idle 4 ∧ sample.Drains 4 ∧
      ∃ n ≤ 3, sample.answer (4 + 2 * n) = .ok none ∧ (sample.memory (4 + 2 * n)).tasks = [] := by
  have hidle : sample.Idle 4 := by
    unfold Idle
    decide +kernel
  have hlength : (sample.memory 4).tasks.length = 3 := by decide +kernel
  obtain ⟨n, hn, -, -, hanswer, htasks, -⟩ :=
    (no_deadlock_and_draining sample).2 4 hidle drains_sample
  exact ⟨hidle, drains_sample, n, hlength ▸ hn, hanswer, htasks⟩

end Course

end Reckoner
