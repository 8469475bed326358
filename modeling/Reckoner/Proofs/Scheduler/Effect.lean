import Reckoner.Proofs.Scheduler.Creation

/-!
# What one call changes

A claim fills operands of pending tasks and takes one of them. A report is dropped, completes its
task, or ends its expression: by a failure, or by the result of the last task that was open.
-/

namespace Reckoner

/-- What a call makes of a task that it is not about: operands may have been filled. -/
structure Task.Stays (before after : Task) : Prop extends before.Grows after where
  status_eq : after.status = before.status
  result_eq : after.result = before.result
  /-- Only pending tasks are filled. -/
  same : before.status ≠ .pending → after = before

/-- A task stays if nothing happens to it. -/
theorem Task.Stays.refl (t : Task) : t.Stays t := ⟨.refl t, rfl, rfl, fun _ => rfl⟩

/-- A task that stays twice stays. -/
theorem Task.Stays.trans {s t u : Task} (h : s.Stays t) (h' : t.Stays u) : s.Stays u := by
  refine ⟨h.toGrows.trans h'.toGrows, h'.status_eq.trans h.status_eq,
    h'.result_eq.trans h.result_eq, fun hclaimed => ?_⟩
  obtain rfl := h.same hclaimed
  exact h'.same hclaimed

namespace Memory

variable {m n : Memory}

/-! ## Claims -/

/-- The way to a claim: operands of pending tasks have been filled. -/
structure Prepares (m n : Memory) : Prop where
  /-- No task is new. -/
  source : ∀ u ∈ n.tasks, ∃ s ∈ m.tasks, s.Stays u
  /-- No task is lost. -/
  kept : ∀ s ∈ m.tasks, ∃ u ∈ n.tasks, s.Stays u
  expressions_eq : n.expressions = m.expressions
  lastTask_eq : n.lastTask = m.lastTask
  lastExpression_eq : n.lastExpression = m.lastExpression

/-- A claim of a task. -/
structure Claims (m : Memory) (claimed : Task) (n : Memory) : Prop where
  /-- The task was pending. -/
  source : ∃ s ∈ m.tasks, s.status = .pending ∧ s.Grows claimed
  /-- It is stored as it was handed out. -/
  mem : claimed ∈ n.tasks
  status_eq : claimed.status = .processing
  /-- Its operands are all known. -/
  ready : ∀ slot ∈ claimed.operation.slots, (claimed.args.get slot).isSome = true
  /-- No other task is new. -/
  others : ∀ u ∈ n.tasks, u.id ≠ claimed.id → ∃ s ∈ m.tasks, s.Stays u
  /-- No other task is lost. -/
  kept : ∀ s ∈ m.tasks, s.id ≠ claimed.id → ∃ u ∈ n.tasks, s.Stays u
  expressions_eq : n.expressions = (m.mark claimed.expressionId).expressions
  lastTask_eq : n.lastTask = m.lastTask
  lastExpression_eq : n.lastExpression = m.lastExpression

/-- Nothing has been filled yet. -/
theorem Prepares.refl (m : Memory) : m.Prepares m :=
  ⟨fun u hu => ⟨u, hu, .refl u⟩, fun s hs => ⟨s, hs, .refl s⟩, rfl, rfl, rfl⟩

/-- A task of which operands are filled stays. -/
theorem stays_fill {t : Task} (hpending : t.status = .pending) (slots : List Slot) :
    t.Stays (m.fill t slots).1 := by
  have hfills := m.fills_fill t slots
  exact ⟨hfills.toGrows, hfills.status_eq, hfills.result_eq, fun hne => absurd hpending hne⟩

/-- Filling another pending task is part of the way. -/
theorem Prepares.put_fill (h : m.Prepares n) (hn : n.Numbered) {t : Task} (ht : t ∈ n.tasks)
    (hpending : t.status = .pending) (slots : List Slot) :
    m.Prepares (n.put (n.fill t slots).1) := by
  have hstays := @stays_fill n t hpending slots
  refine ⟨fun u hu => ?_, fun s hs => ?_, h.expressions_eq, h.lastTask_eq, h.lastExpression_eq⟩
  · rcases mem_put.mp hu with ⟨rfl, -⟩ | ⟨hu, -⟩
    · obtain ⟨s, hs, hs'⟩ := h.source t ht
      exact ⟨s, hs, hs'.trans hstays⟩
    · exact h.source u hu
  · obtain ⟨u, hu, hu'⟩ := h.kept s hs
    by_cases hid : u.id = (n.fill t slots).1.id
    · obtain rfl := hn.eq_of_id_eq hu ht (hid.trans hstays.id_eq)
      exact ⟨_, mem_put_self hu hid, hu'.trans hstays⟩
    · exact ⟨u, mem_put_of_ne hu hid, hu'⟩

/-- The end of the way: the next task whose operands are all filled is taken. -/
theorem Prepares.claims (h : m.Prepares n) {t claimed : Task} (ht : t ∈ n.tasks)
    (hpending : t.status = .pending) (hready : (n.fill t t.operation.slots).2 = true)
    (hclaimed : claimed = { (n.fill t t.operation.slots).1 with status := .processing }) :
    m.Claims claimed ((n.put claimed).mark claimed.expressionId) := by
  have hfills := n.fills_fill t t.operation.slots
  have hgrows : t.Grows claimed := by
    subst hclaimed
    exact ⟨hfills.id_eq, hfills.expressionId_eq, hfills.operation_eq, hfills.dependencies_eq,
      hfills.args⟩
  have hexpressions : ((n.put claimed).mark claimed.expressionId).expressions =
      (m.mark claimed.expressionId).expressions := by
    unfold mark revise
    rw [expressions_put, h.expressions_eq]
  refine ⟨?_, mem_put_self ht hgrows.id_eq.symm, ?_, ?_, fun u hu hne => ?_, fun s hs hne => ?_,
    hexpressions, h.lastTask_eq, h.lastExpression_eq⟩
  · obtain ⟨s, hs, hstays⟩ := h.source t ht
    exact ⟨s, hs, hstays.status_eq ▸ hpending, hstays.toGrows.trans hgrows⟩
  · rw [hclaimed]
  · intro slot hslot
    rw [hgrows.operation_eq] at hslot
    subst hclaimed
    exact isSome_of_fill hready slot hslot
  · rcases mem_put.mp hu with ⟨rfl, -⟩ | ⟨hu, -⟩
    · exact absurd rfl hne
    · exact h.source u hu
  · obtain ⟨u, hu, hstays⟩ := h.kept s hs
    exact ⟨u, mem_put_of_ne hu (hstays.id_eq ▸ hne), hstays⟩

/-- Reading a task claims one, or leaves everything as it is. -/
theorem claim_cases (h : m.Numbered) :
    m.claim = (none, m) ∨ ∃ t, m.claim.1 = some t ∧ m.Claims t m.claim.2 :=
  @claim_induction m (fun n => n.Numbered ∧ m.Prepares n) m.Claims
    (fun _ _ ⟨hn, hprepares⟩ ht hpending =>
      ⟨hn.put _, hprepares.put_fill hn ht hpending _⟩)
    (fun _ _ _ ⟨_, hprepares⟩ ht hpending hready hclaimed =>
      hprepares.claims ht hpending hready hclaimed)
    h ⟨h, .refl m⟩

/-! ## Reports -/

/-- An expression is closed before or after a task is written. -/
theorem close_put (h : m.Numbered) {t u : Task} (ht : t ∈ m.tasks) (hid : u.id = t.id)
    (howner : u.expressionId = t.expressionId) (id : ExpressionId) (f : Expression → Expression) :
    ((m.put u).revise id f).drop id = ((m.revise id f).drop id).put u := by
  unfold drop revise put
  simp only [List.filter_map]
  congr 2
  refine List.filter_congr fun s hs => ?_
  simp only [Function.comp_apply]
  split_ifs with hsid
  · rw [h.eq_of_id_eq hs ht (hsid.trans hid), howner]
  · rfl

/-- The end of an expression drops what has just been written of its tasks. -/
theorem close_put_self (h : m.Numbered) {t u : Task} (ht : t ∈ m.tasks) (hid : u.id = t.id)
    (howner : u.expressionId = t.expressionId) (f : Expression → Expression) :
    ((m.put u).revise t.expressionId f).drop t.expressionId =
      (m.revise t.expressionId f).drop t.expressionId := by
  rw [close_put h ht hid howner]
  refine put_of_forall_ne fun s hs hsid => ?_
  obtain ⟨hs, hne⟩ := mem_drop.mp hs
  exact hne (congrArg Task.expressionId (h.eq_of_id_eq hs ht (hsid.trans hid)))

/-- What a report may do. -/
inductive Applies (m : Memory) (report : Report) : Memory → Prop
  /-- No task awaits the report. -/
  | dropped (hawaiting : m.awaiting? report = none) : Applies m report m
  /-- The expression fails. -/
  | failed (t : Task) (error : String) (hawaiting : m.awaiting? report = some t)
      (hreason : report.failureReason? = some error) :
      Applies m report (m.fail t.expressionId error)
  /-- The task is completed, and another one of its expression is not. -/
  | completed (t : Task) (hawaiting : m.awaiting? report = some t)
      (hreason : report.failureReason? = none)
      (hopen : ∃ u ∈ m.tasks, u.expressionId = t.expressionId ∧ u.id ≠ t.id ∧
        u.status ≠ .completed) :
      Applies m report (m.put { t with status := .completed, result := some report.result })
  /-- The last task that was open has its result, and so has the expression. -/
  | finished (t : Task) (hawaiting : m.awaiting? report = some t)
      (hreason : report.failureReason? = none)
      (hall : ∀ u ∈ m.tasks, u.expressionId = t.expressionId → u.id ≠ t.id →
        u.status = .completed) :
      Applies m report (m.finish t.expressionId report.result)

/-- What a report does that a task awaits. -/
theorem apply_of_awaiting? (h : m.Numbered) {report : Report} {t : Task}
    (hawaiting : m.awaiting? report = some t) :
    (∃ error, report.failureReason? = some error ∧
      m.apply report = m.fail t.expressionId error) ∨
    (report.failureReason? = none ∧
      (∃ u ∈ m.tasks, u.expressionId = t.expressionId ∧ u.id ≠ t.id ∧ u.status ≠ .completed) ∧
      m.apply report = m.put { t with status := .completed, result := some report.result }) ∨
    (report.failureReason? = none ∧
      (∀ u ∈ m.tasks, u.expressionId = t.expressionId → u.id ≠ t.id → u.status = .completed) ∧
      m.apply report = m.finish t.expressionId report.result) := by
  obtain ⟨ht, -, -⟩ := h.of_awaiting? hawaiting
  cases hreason : report.failureReason? with
  | some error => exact Or.inl ⟨error, rfl, apply_eq_fail hawaiting hreason⟩
  | none =>
    have hcomplete : m.apply report = m.complete t report.result := by
      simp only [Memory.apply, hawaiting, hreason]
    have hdropped : (m.put { t with status := .completed, result := some report.result }).finish
        t.expressionId report.result = m.finish t.expressionId report.result :=
      close_put_self (u := { t with status := .completed, result := some report.result }) h ht rfl
        rfl _
    rw [hcomplete, complete, hdropped]
    split_ifs with hall
    · refine Or.inr (Or.inr ⟨rfl, fun u hu hexpression hne => ?_, rfl⟩)
      refine beq_iff_eq.mp (List.all_eq_true.mp hall u (List.mem_filter.mpr ⟨?_, ?_⟩))
      · exact mem_put_of_ne hu hne
      · exact beq_iff_eq.mpr hexpression
    · refine Or.inr (Or.inl ⟨rfl, ?_, rfl⟩)
      rw [List.all_eq_true] at hall
      push Not at hall
      obtain ⟨u, hu, hopen⟩ := hall
      obtain ⟨hu, hexpression⟩ := List.mem_filter.mp hu
      rcases mem_put.mp hu with ⟨rfl, -⟩ | ⟨hu, hne⟩
      · simp at hopen
      · exact ⟨u, hu, beq_iff_eq.mp hexpression, hne, by simpa using hopen⟩

/-- Any report is dropped, or does what an awaited one does. -/
theorem apply_cases (h : m.Numbered) (report : Report) : m.Applies report (m.apply report) := by
  cases hawaiting : m.awaiting? report with
  | none =>
    rw [apply_eq_self hawaiting]
    exact .dropped hawaiting
  | some t =>
    obtain ⟨error, hreason, hafter⟩ | ⟨hreason, hopen, hafter⟩ | ⟨hreason, hall, hafter⟩ :=
      apply_of_awaiting? h hawaiting
    · exact hafter ▸ .failed t error hawaiting hreason
    · exact hafter ▸ .completed t hawaiting hreason hopen
    · exact hafter ▸ .finished t hawaiting hreason hall

/-- A claimed task awaits a report. -/
theorem Consistent.awaiting?_eq_some {promise : Promise} (h : m.Consistent promise) {t : Task}
    (ht : t ∈ m.tasks) (hclaimed : t.status = .processing) {report : Report}
    (hid : t.id = report.id) : m.awaiting? report = some t := by
  obtain ⟨e, he, heid, hopen⟩ := h.owned t ht
  have htask : m.task? report.id = some t := h.numbered.task?_eq_some_iff.mpr ⟨ht, hid⟩
  have howner : m.expression? t.expressionId = some e :=
    h.numbered.expression?_eq_some_iff.mpr ⟨he, heid⟩
  unfold awaiting?
  rw [htask]
  simp [howner, hopen, hclaimed]

/-- A report that a task awaits changes something: the task is gone, or is completed. -/
theorem apply_ne (h : m.Numbered) {report : Report} {t : Task}
    (hawaiting : m.awaiting? report = some t) : m.apply report ≠ m := by
  obtain ⟨ht, -, hclaimed⟩ := h.of_awaiting? hawaiting
  intro hsame
  rw [← hsame] at ht
  obtain ⟨_, -, hafter⟩ | ⟨-, -, hafter⟩ | ⟨-, -, hafter⟩ := apply_of_awaiting? h hawaiting
  · rw [hafter] at ht
    exact (mem_drop.mp ht).2 rfl
  · rw [hafter] at ht
    rcases mem_put.mp ht with ⟨heq, -⟩ | ⟨-, hne⟩
    · rw [heq] at hclaimed
      cases hclaimed
    · exact hne rfl
  · rw [hafter] at ht
    exact (mem_drop.mp ht).2 rfl

end Memory

end Reckoner
