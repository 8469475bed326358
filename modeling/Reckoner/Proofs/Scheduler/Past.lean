import Reckoner.Proofs.Scheduler.Change

/-!
# What rows tell of the past

A stored task that is not pending has been handed out, and one that is completed has had its result
reported behind that. Numbers of tasks are not given out again, so whatever every call keeps of a
task holds of all that is ever stored with its number.
-/

namespace Reckoner.Course

variable {course : Course} {k : Nat}

/-! ## Numbers -/

/-- A number that has been given out stays so. -/
theorem lastTask_mono (course : Course) {i l : Nat} (hle : i ≤ l) :
    (course.memory i).lastTask ≤ (course.memory l).lastTask := by
  induction l, hle using Nat.le_induction with
  | base => exact Int.le_refl _
  | succ l _ ih => exact Int.le_trans ih (course.last_le l).1

/-- The tasks of a new expression have new numbers. -/
theorem lastTask_lt {e : Expression} {graph : TaskGraph} {t : Task}
    (ht : t ∈ course.newTasks k e graph) : (course.memory k).lastTask < t.id :=
  (Task.bounds_ofNodes ht).1

/-- Numbers are given out from one on, and more of them to tasks than to expressions. -/
theorem last_bounds (course : Course) (k : Nat) :
    0 ≤ (course.memory k).lastExpression ∧
      (course.memory k).lastExpression ≤ (course.memory k).lastTask := by
  induction k with
  | zero => exact ⟨Int.le_refl 0, Int.le_refl 0⟩
  | succ k ih =>
    cases course.effect k with
    | idle hmemory => rwa [hmemory]
    | created e graph hcreates hmemory =>
      have hsize : (1 : Int) ≤ graph.size :=
        Int.ofNat_le.mpr (List.length_pos_iff.mpr hcreates.shaped.nonempty)
      rw [hmemory]
      exact ⟨Int.le_add_one ih.1, Int.add_le_add ih.2 hsize⟩
    | claimed t hout => rwa [hout.claims.lastTask_eq, hout.claims.lastExpression_eq]
    | failed _ _ _ _ _ _ hmemory | completed _ _ _ _ _ _ hmemory
    | finished _ _ _ _ _ _ hmemory =>
      rw [hmemory]
      exact ih

/-- Zero is the number of no stored task, and of no expression of one. -/
theorem task_positive {t : Task} (ht : t ∈ (course.memory k).tasks) :
    0 < t.id ∧ 0 < t.expressionId := by
  induction k generalizing t with
  | zero => cases ht
  | succ k ih =>
    obtain ⟨s, hs, hturn⟩ | ⟨e, graph, hcreates, hnew⟩ := task_source ht
    · rw [hturn.grows.id_eq, hturn.grows.expressionId_eq]
      exact ih hs
    · obtain ⟨hexpression, htask⟩ := course.last_bounds k
      obtain ⟨_, _, _, hfresh⟩ := Task.exists_fresh hcreates.shaped hnew
      rw [hfresh.expressionId_eq, hcreates.id_eq]
      exact ⟨Int.lt_of_le_of_lt (Int.le_trans hexpression htask) (lastTask_lt hnew),
        Int.lt_add_one_of_le hexpression⟩

/-- The number of a stored task has been given out, and that of its expression is no larger than
the last one. -/
theorem task_le_last {t : Task} (ht : t ∈ (course.memory k).tasks) :
    t.id ≤ (course.memory k).lastTask ∧ t.expressionId ≤ (course.memory k).lastTask := by
  obtain ⟨e, he, hid, -⟩ := (course.orderly k).owned t ht
  exact ⟨(course.numbered k).task_le t ht,
    hid ▸ Int.le_trans ((course.numbered k).expression_le e he) (course.last_bounds k).2⟩

/-- What every call keeps of a task is kept of all that is stored with its number from then on. -/
theorem task_later {P : Task → Prop} (hturns : ∀ k s u, course.TurnsTask k s u → P s → P u)
    {id : TaskId} {i l : Nat} (hle : i ≤ l) (hid : id ≤ (course.memory i).lastTask)
    (hbefore : ∀ s ∈ (course.memory i).tasks, s.id = id → P s) :
    ∀ u ∈ (course.memory l).tasks, u.id = id → P u := by
  induction l, hle using Nat.le_induction with
  | base => exact hbefore
  | succ l hle ih =>
    intro u hu huid
    obtain ⟨s, hs, hturn⟩ | ⟨e, graph, hcreates, hnew⟩ := task_source hu
    · exact hturns l s u hturn (ih s hs (hturn.grows.id_eq.symm.trans huid))
    · -- The number had been given out, so it cannot be that of a new task.
      have hlt := lastTask_lt hnew
      rw [huid] at hlt
      exact absurd (Int.le_trans hid (course.lastTask_mono hle)) (Int.not_le_of_gt hlt)

/-- Whatever is stored with the number of a task from then on is that task. -/
theorem grows_of_le {i l : Nat} (hle : i ≤ l) {s u : Task} (hs : s ∈ (course.memory i).tasks)
    (hu : u ∈ (course.memory l).tasks) (hid : u.id = s.id) : s.Grows u := by
  refine task_later (P := fun u => s.Grows u)
    (fun _ _ _ hturn hgrows => hgrows.trans hturn.grows) hle ((course.numbered i).task_le s hs)
    (fun v hv hvid => ?_) u hu hid
  obtain rfl := (course.numbered i).eq_of_id_eq hv hs hvid
  exact .refl v

/-- A task is kept until its expression ends. -/
theorem task_kept_later {i l : Nat} (hle : i ≤ l) {s : Task} (hs : s ∈ (course.memory i).tasks) :
    (∃ u ∈ (course.memory l).tasks, s.Grows u) ∨
      ∃ e ∈ (course.memory l).expressions, e.id = s.expressionId ∧ e.status.isTerminal = true := by
  induction l, hle using Nat.le_induction with
  | base => exact Or.inl ⟨s, hs, .refl s⟩
  | succ l _ ih =>
    obtain ⟨t, ht, hgrows⟩ | ⟨d, hd, hid, hterminal⟩ := ih
    · obtain ⟨u, hu, hturn⟩ | ⟨e, he, heid, hterminal⟩ := task_kept ht
      · exact Or.inl ⟨u, hu, hgrows.trans hturn.grows⟩
      · exact Or.inr ⟨e, he, heid.trans hgrows.expressionId_eq, hterminal⟩
    · obtain ⟨e, he, hturn⟩ := expression_kept hd
      obtain rfl := hturn.eq_of_isTerminal hterminal
      exact Or.inr ⟨e, he, hid, hterminal⟩

/-- New tasks are pending. -/
theorem Creates.pending {e : Expression} {graph : TaskGraph} (hcreates : course.Creates k e graph)
    {t : Task} (ht : t ∈ course.newTasks k e graph) : t.status = .pending := by
  obtain ⟨_, _, _, hfresh⟩ := Task.exists_fresh hcreates.shaped ht
  exact hfresh.status_eq

/-! ## Claims -/

/-- A claimed task has been handed out. -/
theorem exists_handsOut {t : Task} (ht : t ∈ (course.memory k).tasks)
    (hclaimed : t.status ≠ .pending) : ∃ i < k, ∃ s, course.HandsOut i s ∧ s.Grows t := by
  induction k generalizing t with
  | zero => cases ht
  | succ k ih =>
    have hearlier : ∀ s ∈ (course.memory k).tasks, s.status ≠ .pending → s.Grows t →
        ∃ i < k + 1, ∃ s, course.HandsOut i s ∧ s.Grows t := fun s hs hsclaimed hgrows => by
      obtain ⟨i, hi, first, hout, hfirst⟩ := ih hs hsclaimed
      exact ⟨i, Nat.lt_succ_of_lt hi, first, hout, hfirst.trans hgrows⟩
    obtain ⟨s, hs, hturn⟩ | ⟨e, graph, hcreates, hnew⟩ := task_source ht
    · cases hturn with
      | stays hstays => exact hearlier s hs (hstays.status_eq ▸ hclaimed) hstays.toGrows
      | claimed hout => exact ⟨k, Nat.lt_succ_self k, t, hout, .refl t⟩
      | completed report happlies hid hreason hbefore hafter =>
        have hgrows := (TurnsTask.completed report happlies hid hreason hbefore hafter).grows
        exact hearlier s hs (by simp [hbefore]) hgrows
    · exact absurd (hcreates.pending hnew) hclaimed

/-- A task that has been handed out does not become pending again. -/
theorem HandsOut.ne_pending {i l : Nat} {t u : Task} (hout : course.HandsOut i t) (hlt : i < l)
    (hu : u ∈ (course.memory l).tasks) (hid : u.id = t.id) : u.status ≠ .pending := by
  have hclaims := hout.claims
  refine task_later (P := fun u => u.status ≠ .pending) (fun k s u hturn hbefore => ?_) hlt
    ((course.numbered (i + 1)).task_le t hclaims.mem) (fun s hs hsid => ?_) u hu hid
  · cases hturn with
    | stays hstays => rwa [hstays.status_eq]
    | claimed _ hpending => exact absurd hpending hbefore
    | completed _ _ _ _ _ hafter =>
      rw [hafter]
      simp
  · obtain rfl := (course.numbered (i + 1)).eq_of_id_eq hs hclaims.mem hsid
    simp [hclaims.status_eq]

/-! ## Reports -/

/-- A report that changes something is awaited by a task. -/
theorem Applies.exists_awaiting? {report : Report} (h : course.Applies k report) :
    ∃ t, (course.memory k).awaiting? report = some t := by
  obtain ⟨hstep, hchanged⟩ := h
  rw [course.memory_complete_of_orderly (course.orderly k) hstep] at hchanged
  cases hawaiting : (course.memory k).awaiting? report with
  | none => exact absurd (Memory.apply_eq_self hawaiting) hchanged
  | some t => exact ⟨t, rfl⟩

/-- A completed task has had its result reported. -/
theorem exists_applies {t : Task} (ht : t ∈ (course.memory k).tasks)
    (hcompleted : t.status = .completed) :
    ∃ l < k, ∃ report, course.Applies l report ∧ report.id = t.id ∧
      report.failureReason? = none ∧ t.result = some report.result := by
  induction k generalizing t with
  | zero => cases ht
  | succ k ih =>
    obtain ⟨s, hs, hturn⟩ | ⟨e, graph, hcreates, hnew⟩ := task_source ht
    · have hid := hturn.grows.id_eq
      cases hturn with
      | stays hstays =>
        obtain ⟨l, hl, report, happlies, hreport, hreason, hresult⟩ :=
          ih hs (hstays.status_eq.symm.trans hcompleted)
        exact ⟨l, Nat.lt_succ_of_lt hl, report, happlies, hreport.trans hid.symm, hreason,
          hstays.result_eq.trans hresult⟩
      | claimed _ _ hafter =>
        rw [hafter] at hcompleted
        cases hcompleted
      | completed report happlies hreport hreason _ hafter =>
        exact ⟨k, Nat.lt_succ_self k, report, happlies, hreport.trans hid.symm, hreason,
          by rw [hafter]⟩
    · rw [hcreates.pending hnew] at hcompleted
      cases hcompleted

/-- What a report that changes something is about has been handed out. -/
theorem Applies.exists_handsOut {report : Report} (h : course.Applies k report) :
    ∃ i < k, ∃ t, course.HandsOut i t ∧ t.id = report.id := by
  obtain ⟨t, hawaiting⟩ := h.exists_awaiting?
  obtain ⟨ht, hid, hclaimed⟩ := (course.numbered k).of_awaiting? hawaiting
  obtain ⟨i, hi, s, hout, hgrows⟩ := Course.exists_handsOut ht (by simp [hclaimed])
  exact ⟨i, hi, s, hout, hgrows.id_eq.symm.trans hid⟩

/-- A task has been handed out and, behind that, completed by a report. -/
def CompletedBefore (course : Course) (k : Nat) (id : TaskId) : Prop :=
  ∃ i l, i < l ∧ l < k ∧ (∃ t, course.HandsOut i t ∧ t.id = id) ∧
    ∃ report, course.Applies l report ∧ report.id = id ∧ report.failureReason? = none

/-- A completed task has been handed out, and its result reported behind that. -/
theorem completedBefore {t : Task} (ht : t ∈ (course.memory k).tasks)
    (hcompleted : t.status = .completed) : course.CompletedBefore k t.id := by
  obtain ⟨l, hl, report, happlies, hid, hreason, -⟩ := exists_applies ht hcompleted
  obtain ⟨i, hi, s, hout, hsid⟩ := happlies.exists_handsOut
  exact ⟨i, l, hi, hl, ⟨s, hout, hsid.trans hid⟩, report, happlies, hid, hreason⟩

/-- What a report that changed something is about is completed for good, if it is stored at all. -/
theorem Applies.completed {i l : Nat} {report : Report} (h : course.Applies i report) (hlt : i < l)
    {u : Task} (hu : u ∈ (course.memory l).tasks) (hid : u.id = report.id) :
    u.status = .completed := by
  obtain ⟨t, hawaiting⟩ := h.exists_awaiting?
  have hnumbered := course.numbered i
  obtain ⟨ht, htid, -⟩ := hnumbered.of_awaiting? hawaiting
  have hgiven : report.id ≤ (course.memory (i + 1)).lastTask :=
    Int.le_trans (htid ▸ hnumbered.task_le t ht) (course.last_le i).1
  -- Right behind the report the task is completed, or gone with its expression.
  refine task_later (P := fun u => u.status = .completed) (fun k s u hturn hbefore => ?_) hlt hgiven
    (fun s hs hsid => ?_) u hu hid
  · cases hturn with
    | stays hstays => rw [hstays.status_eq, hbefore]
    | claimed _ hpending =>
      rw [hpending] at hbefore
      cases hbefore
    | completed _ _ _ _ _ hafter => rw [hafter]
  · have hsame : s ∈ (course.memory i).tasks → s = t := fun hs =>
      hnumbered.eq_of_id_eq hs ht (hsid.trans htid.symm)
    rw [course.memory_complete_of_orderly (course.orderly i) h.1] at hs
    obtain ⟨_, -, hafter⟩ | ⟨-, -, hafter⟩ | ⟨-, -, hafter⟩ :=
      Memory.apply_of_awaiting? hnumbered hawaiting
    · rw [hafter] at hs
      obtain ⟨hs, hne⟩ := Memory.mem_drop.mp hs
      exact absurd (congrArg Task.expressionId (hsame hs)) hne
    · rw [hafter] at hs
      rcases Memory.mem_put.mp hs with ⟨rfl, -⟩ | ⟨hs, hne⟩
      · rfl
      · exact absurd (congrArg Task.id (hsame hs)) hne
    · rw [hafter] at hs
      obtain ⟨hs, hne⟩ := Memory.mem_drop.mp hs
      exact absurd (congrArg Task.expressionId (hsame hs)) hne

end Reckoner.Course
