import Mathlib.Order.Interval.Finset.Nat
import Reckoner.Proofs.Scheduler.Past

/-!
# The root comes last

The result of an expression is that of the task which happens to be completed last. Every task but
the root is a dependency of another one, and a task is claimed only behind the results of its
dependencies; so the root is claimed when all other tasks are completed, and no other task can be
completed last.
-/

namespace Reckoner

/-- Once the root is claimed, every other task is completed: from the root on down, whatever a
claimed task depends on is completed. -/
theorem Evaluating.completed_of_root {promise : Promise} {m : Memory} {id : ExpressionId}
    {graph : TaskGraph} {base : TaskId} (h : Evaluating promise m id graph base) (hm : m.Numbered)
    (hshaped : graph.Shaped) {t : Task} (ht : t ∈ m.tasks) (hroot : t.id = base + graph.root + 1)
    (hclaimed : t.status ≠ .pending) :
    ∀ u ∈ m.tasks, u.expressionId = id → u.id ≠ t.id → u.status = .completed := by
  -- Downwards: what depends on the task at `i` stands behind it and is claimed, so it has all its
  -- operands, the result of `i` among them.
  have hdown : ∀ i : Nat, i < graph.root →
      ∃ d ∈ m.tasks, d.id = base + i + 1 ∧ d.status = .completed := by
    refine Nat.strong_decreasing_induction
      ⟨graph.root, fun i hi hlt => absurd hlt (Nat.lt_asymm hi)⟩ fun i ih hi => ?_
    obtain ⟨other, hother, slot, hslot⟩ := hshaped.consumed i hi
    obtain ⟨j, hj⟩ := List.mem_iff_getElem?.mp hother
    have hlt : i < j := (hshaped.node j other hj).backward slot i hslot
    obtain ⟨w, hw, -, hrealizes⟩ := h.stored j other hj
    have hwclaimed : w.status ≠ .pending := by
      by_cases hjroot : j = graph.root
      · obtain rfl := hm.eq_of_id_eq hw ht (hrealizes.id_eq.trans (hjroot ▸ hroot.symm))
        exact hclaimed
      · have hsize : j < graph.size := (List.getElem?_eq_some_iff.mp hj).1
        obtain ⟨d, hd, hdid, hdone⟩ := ih j hlt (by unfold TaskGraph.root at hjroot ⊢; omega)
        obtain rfl := hm.eq_of_id_eq hw hd (hrealizes.id_eq.trans hdid.symm)
        simp [hdone]
    obtain ⟨value, -, hresult⟩ :=
      hrealizes.exists_result (hshaped.node j other hj) hwclaimed hslot
    obtain ⟨d, hd, hdid, hdone, -⟩ := hm.result?_eq_some_iff.mp hresult
    exact ⟨d, hd, hdid, hdone⟩
  intro u hu hid hne
  obtain ⟨i, hi, hnumber⟩ := h.numbered u hu hid
  have hiroot : i ≠ graph.root := fun heq => hne (by rw [hnumber, hroot, heq])
  obtain ⟨d, hd, hdid, hdone⟩ := hdown i (by unfold TaskGraph.root at hiroot ⊢; omega)
  obtain rfl := hm.eq_of_id_eq hu hd (hnumber.trans hdid.symm)
  exact hdone

namespace Course

variable {course : Course} {j k : Nat} {d : Expression} {graph : TaskGraph}

/-! ## Where expressions come from -/

/-- What is submitted of an expression does not change. -/
theorem Creates.turns {e : Expression} (hcreates : course.Creates j d graph)
    (hturn : course.TurnsExpression k d e) : course.Creates j e graph := by
  obtain ⟨hstep, hcompiled, hid⟩ := hcreates
  cases hturn with
  | stays hafter | begun _ _ _ _ hafter | failed _ _ _ _ _ _ _ _ hafter
  | completed _ _ _ _ _ _ _ _ hafter =>
    subst hafter
    exact ⟨hstep, hcompiled, hid⟩

/-- Every expression has been submitted. -/
theorem exists_creates (hd : d ∈ (course.memory k).expressions) :
    ∃ j < k, ∃ graph, course.Creates j d graph := by
  induction k generalizing d with
  | zero => cases hd
  | succ k ih =>
    obtain ⟨c, hc, hturn⟩ | ⟨graph, hcreates, -⟩ := expression_source hd
    · obtain ⟨j, hj, graph, hcreates⟩ := ih hc
      exact ⟨j, Nat.lt_succ_of_lt hj, graph, hcreates.turns hturn⟩
    · exact ⟨k, Nat.lt_succ_self k, graph, hcreates⟩

/-- A new task is stored. -/
theorem Creates.mem (hcreates : course.Creates j d graph) {s : Task}
    (hs : s ∈ course.newTasks j d graph) : s ∈ (course.memory (j + 1)).tasks := by
  rw [hcreates.tasks_eq]
  exact List.mem_append_right _ hs

/-- The tasks of an unfinished expression are kept. -/
theorem Creates.kept (hcreates : course.Creates j d graph) (hlt : j < k)
    (hd : d ∈ (course.memory k).expressions) (hopen : d.status.isTerminal = false) {s : Task}
    (hs : s ∈ course.newTasks j d graph) : ∃ u ∈ (course.memory k).tasks, s.Grows u := by
  obtain ⟨_, _, _, hfresh⟩ := Task.exists_fresh hcreates.shaped hs
  obtain hkept | ⟨e, he, hid, hterminal⟩ := task_kept_later hlt (hcreates.mem hs)
  · exact hkept
  · obtain rfl := (course.numbered k).eq_of_expression_id_eq he hd
      (hid.trans hfresh.expressionId_eq)
    rw [hopen] at hterminal
    cases hterminal

/-- Numbers from one base on that are among as many from another one on begin where those do. -/
theorem base_eq_of_among {base other : Int} {size first last : Nat}
    (hfirst : other + (0 : Nat) + 1 = base + first + 1)
    (hlast : other + (size - 1 : Nat) + 1 = base + last + 1) (hlt : last < size) :
    base = other := by omega

/-- The tasks of an unfinished expression still have the numbers that they were stored with. -/
theorem Creates.base_eq (hcreates : course.Creates j d graph) (hlt : j < k)
    (hd : d ∈ (course.memory k).expressions) (hopen : d.status.isTerminal = false) {base : TaskId}
    (htasks : Evaluating .any (course.memory k) d.id graph base) :
    base = (course.memory j).lastTask := by
  -- The first and the last of the new tasks are among those numbered from `base` on.
  have hamong : ∀ i : Nat, i < graph.size →
      ∃ i' : Nat, i' < graph.size ∧ (course.memory j).lastTask + i + 1 = base + i' + 1 := by
    intro i hi
    obtain ⟨s, hs, hfresh⟩ := Task.fresh_ofGraph hcreates.shaped d.id (course.memory j).lastTask
      (List.getElem?_eq_getElem hi)
    obtain ⟨u, hu, hgrows⟩ := hcreates.kept hlt hd hopen (List.mem_of_getElem? hs)
    obtain ⟨i', hi', hnumber⟩ :=
      htasks.numbered u hu (hgrows.expressionId_eq.trans hfresh.expressionId_eq)
    exact ⟨i', hi', by rw [← hfresh.id_eq, ← hgrows.id_eq, hnumber]⟩
  have hpositive : 0 < graph.size := List.length_pos_iff.mpr hcreates.shaped.nonempty
  obtain ⟨first, -, hfirst⟩ := hamong 0 hpositive
  obtain ⟨last, hlt, hlast⟩ := hamong (graph.size - 1) (Nat.sub_one_lt (Nat.ne_of_gt hpositive))
  exact base_eq_of_among hfirst hlast hlt

/-- A stored task of an expression stands for a node of its graph. -/
theorem Creates.exists_placed (hcreates : course.Creates j d graph) (hlt : j < k)
    (hd : d ∈ (course.memory k).expressions) {t : Task} (ht : t ∈ (course.memory k).tasks)
    (howner : t.expressionId = d.id) :
    ∃ i node, t.Placed .any (course.memory k) d graph (course.memory j).lastTask i node := by
  obtain ⟨e, graph', base, i, node, hplaced⟩ := (course.orderly k).exists_placed ht
  obtain rfl := (course.numbered k).eq_of_expression_id_eq hplaced.mem hd
    (hplaced.id_eq.trans howner)
  obtain rfl := Except.ok.inj (hplaced.compiled.symm.trans hcreates.compiled)
  obtain rfl := hcreates.base_eq hlt hd hplaced.unfinished hplaced.tasks
  exact ⟨i, node, hplaced⟩

/-! ## Completion -/

variable {e : Expression} {root : Task}

/-- What completes an expression is the report on its root, behind those on all other tasks. -/
theorem TurnsExpression.exists_root_report (hturn : course.TurnsExpression k d e)
    (hd : d ∈ (course.memory k).expressions) (hcreates : course.Creates j d graph) (hlt : j < k)
    (hroot : (course.newTasks j d graph)[graph.root]? = some root)
    (hbefore : d.status ≠ .completed) (hafter : e.status = .completed) :
    ∃ report, course.Applies k report ∧ report.id = root.id ∧ report.failureReason? = none ∧
      e.result = some report.result ∧
      ∀ s ∈ course.newTasks j d graph, s.id ≠ root.id → course.CompletedBefore k s.id := by
  cases hturn with
  | stays hsame => exact absurd (hsame ▸ hafter) hbefore
  | begun _ _ _ _ heq | failed _ _ _ _ _ _ _ _ heq =>
    rw [heq] at hafter
    cases hafter
  | completed report t happlies hawaiting howner hreason hall hprocessing heq =>
    obtain ⟨ht, hid, hclaimed⟩ := (course.numbered k).of_awaiting? hawaiting
    obtain ⟨i, node, hplaced⟩ := hcreates.exists_placed hlt hd ht howner
    obtain ⟨_, -, hrootFresh⟩ := Task.fresh_of_getElem? hcreates.shaped hroot
    have hiroot := (course.orderly k).eq_root ht hplaced (by simp [hclaimed]) hall
    have htroot : t.id = root.id := by rw [hplaced.realizes.id_eq, hrootFresh.id_eq, hiroot]
    refine ⟨report, happlies, hid.symm.trans htroot, hreason, by rw [heq], fun s hs hne => ?_⟩
    obtain ⟨_, _, _, hfresh⟩ := Task.exists_fresh hcreates.shaped hs
    obtain ⟨u, hu, hgrows⟩ := hcreates.kept hlt hd hplaced.unfinished hs
    have hcompleted := hall u hu (hgrows.expressionId_eq.trans hfresh.expressionId_eq)
      (by rwa [hgrows.id_eq, htroot])
    rw [← hgrows.id_eq]
    exact completedBefore hu hcompleted

/-- A result of the root completes the expression. -/
theorem Creates.completed_of_root (hcreates : course.Creates j d graph) (hlt : j < k)
    (hd : d ∈ (course.memory k).expressions)
    (hroot : (course.newTasks j d graph)[graph.root]? = some root) {report : Report}
    (happlies : course.Applies k report) (hid : report.id = root.id)
    (hreason : report.failureReason? = none)
    (he : e ∈ (course.memory (k + 1)).expressions) (heid : e.id = d.id) :
    e.status = .completed ∧ e.result = some report.result := by
  obtain ⟨t, hawaiting⟩ := happlies.exists_awaiting?
  obtain ⟨ht, htid, hclaimed⟩ := (course.numbered k).of_awaiting? hawaiting
  obtain ⟨_, -, hrootFresh⟩ := Task.fresh_of_getElem? hcreates.shaped hroot
  have hstored := hcreates.mem (List.mem_of_getElem? hroot)
  have htroot : t.id = root.id := htid.trans hid
  have howner : t.expressionId = d.id :=
    (grows_of_le hlt hstored ht htroot).expressionId_eq.trans hrootFresh.expressionId_eq
  obtain ⟨i, node, hplaced⟩ := hcreates.exists_placed hlt hd ht howner
  have hothers := hplaced.tasks.completed_of_root (course.numbered k) hplaced.shaped ht
    (htroot.trans hrootFresh.id_eq) (by simp [hclaimed])
  rw [course.memory_complete_of_orderly (course.orderly k) happlies.1] at he
  obtain ⟨_, hfailure, -⟩ | ⟨-, hopen, -⟩ | ⟨-, -, hafter⟩ :=
    Memory.apply_of_awaiting? (course.numbered k) hawaiting
  · rw [hreason] at hfailure
    cases hfailure
  · obtain ⟨u, hu, huowner, hne, hstatus⟩ := hopen
    exact absurd (hothers u hu (huowner.trans howner) hne) hstatus
  · rw [hafter] at he
    obtain ⟨c, hc, rfl⟩ := Memory.mem_revise.mp he
    split_ifs at heid ⊢ with hsame
    · exact ⟨rfl, rfl⟩
    · exact absurd (heid.trans howner.symm) hsame

/-- **The root comes last.** Every expression has been stored with the tasks of its graph, the root
behind the others. A call that completes the expression reports a result of the root, which becomes
the result of the expression, and every other task had been handed out and then completed by
an earlier report. The other way round, any applied report of a finite result of the root completes
the expression at once. -/
theorem root_completes_last (course : Course) {k : Nat} {d e : Expression}
    (hd : d ∈ (course.memory k).expressions) (he : e ∈ (course.memory (k + 1)).expressions)
    (hid : e.id = d.id) :
    ∃ j < k, ∃ graph root, course.Creates j d graph ∧
      (course.newTasks j d graph)[graph.root]? = some root ∧
      (d.status ≠ .completed → e.status = .completed →
        ∃ report, course.Applies k report ∧ report.id = root.id ∧ report.error = "" ∧
          report.result.isFinite = true ∧ e.result = some report.result ∧
          ∀ s ∈ course.newTasks j d graph, s.id ≠ root.id → course.CompletedBefore k s.id) ∧
      ∀ report, course.Applies k report → report.id = root.id → report.error = "" →
        report.result.isFinite = true → e.status = .completed ∧ e.result = some report.result := by
  obtain ⟨j, hlt, graph, hcreates⟩ := exists_creates hd
  have hsize : graph.root < graph.size :=
    Nat.sub_one_lt (Nat.ne_of_gt (List.length_pos_iff.mpr hcreates.shaped.nonempty))
  obtain ⟨root, hroot, -⟩ := Task.fresh_ofGraph hcreates.shaped d.id (course.memory j).lastTask
    (List.getElem?_eq_getElem hsize)
  refine ⟨j, hlt, graph, root, hcreates, hroot, fun hbefore hafter => ?_,
    fun report happlies hreport herror hfinite => ?_⟩
  · obtain ⟨f, hf, hturn⟩ := expression_kept hd
    obtain rfl := (course.numbered (k + 1)).eq_of_expression_id_eq hf he
      (hturn.id_eq.trans hid.symm)
    obtain ⟨report, happlies, hreport, hreason, hresult, hothers⟩ :=
      hturn.exists_root_report hd hcreates hlt hroot hbefore hafter
    obtain ⟨herror, hfinite⟩ := report.failureReason?_eq_none_iff.mp hreason
    exact ⟨report, happlies, hreport, herror, hfinite, hresult, hothers⟩
  · exact hcreates.completed_of_root hlt hd hroot happlies hreport
      (report.failureReason?_eq_none_iff.mpr ⟨herror, hfinite⟩) he hid

/-- In the sample the report on the outer minus completes the first formula, behind the one on the
inner minus. -/
theorem root_completes_last_sample :
    let done : Expression :=
      ⟨1, 7, "-(-(2))", .completed, some ⟨0x4000000000000000⟩, "", ⟨0, 0⟩, ⟨0, 0⟩⟩
    let before : Expression := { done with status := .processing, result := none }
    before ∈ (sample.memory 7).expressions ∧ done ∈ (sample.memory 8).expressions ∧
      ∃ j < 7, ∃ graph root, sample.Creates j before graph ∧
        (sample.newTasks j before graph)[graph.root]? = some root ∧
        ∃ report, sample.Applies 7 report ∧ report.id = root.id ∧
          ∀ s ∈ sample.newTasks j before graph, s.id ≠ root.id → sample.CompletedBefore 7 s.id := by
  intro done before
  have hbefore : before ∈ (sample.memory 7).expressions := by decide +kernel
  have hdone : done ∈ (sample.memory 8).expressions := by decide +kernel
  obtain ⟨j, hj, graph, root, hcreates, hroot, hcompletes, -⟩ :=
    root_completes_last sample hbefore hdone rfl
  obtain ⟨report, happlies, hid, -, -, -, hothers⟩ := hcompletes (by decide) rfl
  exact ⟨hbefore, hdone, j, hj, graph, root, hcreates, hroot, report, happlies, hid, hothers⟩

end Course

end Reckoner
