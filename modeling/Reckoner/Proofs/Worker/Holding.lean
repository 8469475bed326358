import Reckoner.Proofs.Scheduler.Orderly

/-!
# Tasks that somebody works on

A task in processing was claimed. It stays in processing until the report on it comes, or until its
expression fails and its row is dropped. Whoever works on a task cannot tell the two apart.
-/

namespace Reckoner.Memory

variable {m n : Memory} {report other : Report} {t : Task}

/-! ## Tasks that have been claimed -/

/-- The task that a report is about has been claimed. -/
structure Knows (m : Memory) (report : Report) : Prop where
  /-- Its number has been given out. -/
  le : report.id ≤ m.lastTask
  /-- While it is stored, it belongs to the expression of the report and is not pending. -/
  same : ∀ t ∈ m.tasks, t.id = report.id →
    t.expressionId = report.expressionId ∧ t.status ≠ .pending

/-- New tasks have new numbers. -/
theorem Knows.create (h : m.Knows report) (now : Instant) (userId : UserId) (formula : String)
    (graph : TaskGraph) : (m.create now userId formula graph).2.Knows report := by
  refine ⟨Int.le_trans h.le (Int.le_add_of_nonneg_right (Int.natCast_nonneg _)),
    fun t ht hid => ?_⟩
  rcases List.mem_append.mp ht with ht | ht
  · exact h.same t ht hid
  · have hnew := (Task.bounds_ofNodes ht).1
    rw [hid] at hnew
    exact absurd h.le (Int.not_le_of_gt hnew)

/-- A claim of another task changes nothing for a task that has been claimed. -/
theorem Knows.claims (h : m.Knows report) (hclaims : m.Claims t n) : n.Knows report := by
  refine ⟨hclaims.lastTask_eq ▸ h.le, fun u hu hid => ?_⟩
  have hne : u.id ≠ t.id := by
    intro hsame
    obtain ⟨s, hs, hpending, hgrows⟩ := hclaims.source
    exact (h.same s hs (hgrows.id_eq.symm.trans (hsame.symm.trans hid))).2 hpending
  obtain ⟨s, hs, hstays⟩ := hclaims.others u hu hne
  obtain ⟨hexpression, hclaimed⟩ := h.same s hs (hstays.id_eq.symm.trans hid)
  exact ⟨hstays.expressionId_eq.trans hexpression, hstays.status_eq ▸ hclaimed⟩

/-- The task of a claim has been claimed then. -/
theorem knows_of_claims (hn : n.Numbered) (hclaims : m.Claims t n)
    (hid : report.id = t.id) (hexpression : report.expressionId = t.expressionId) :
    n.Knows report := by
  refine ⟨hid ▸ hn.task_le t hclaims.mem, fun u hu huid => ?_⟩
  obtain rfl := hn.eq_of_id_eq hu hclaims.mem (huid.trans hid)
  exact ⟨hexpression.symm, by simp [hclaims.status_eq]⟩

/-- A claimed task never has the number of one that has been claimed before. -/
theorem Knows.id_ne (h : m.Knows report) (hclaims : m.Claims t n) : report.id ≠ t.id := by
  obtain ⟨s, hs, hpending, hgrows⟩ := hclaims.source
  intro hid
  exact (h.same s hs (hgrows.id_eq.symm.trans hid.symm)).2 hpending

/-- A report makes no task pending. -/
theorem Knows.apply (h : m.Knows report) (hm : m.Numbered) (other : Report) :
    (m.apply other).Knows report := by
  have happlies := apply_cases hm other
  generalize m.apply other = n at happlies
  cases happlies with
  | dropped => exact h
  | failed | finished => exact ⟨h.le, fun u hu => h.same u (mem_drop.mp hu).1⟩
  | completed t hawaiting =>
    refine ⟨h.le, fun u hu hid => ?_⟩
    rcases mem_put.mp hu with ⟨rfl, -⟩ | ⟨hu, -⟩
    · obtain ⟨ht, -, -⟩ := hm.of_awaiting? hawaiting
      exact ⟨(h.same t ht hid).1, by simp⟩
    · exact h.same u hu hid

/-! ## Tasks that are worked on -/

/-- The task that a report is about is in processing, or its expression has failed. -/
def Holds (m : Memory) (report : Report) : Prop :=
  (∃ t ∈ m.tasks, t.id = report.id ∧ t.expressionId = report.expressionId ∧
    t.status = .processing) ∨
  ∃ e ∈ m.expressions, e.id = report.expressionId ∧ e.status = .error

/-- A new expression ends no work. -/
theorem Holds.create (h : m.Holds report) (now : Instant) (userId : UserId) (formula : String)
    (graph : TaskGraph) : (m.create now userId formula graph).2.Holds report := by
  obtain ⟨t, ht, htask⟩ | ⟨e, he, hexpression⟩ := h
  · exact Or.inl ⟨t, List.mem_append_left _ ht, htask⟩
  · exact Or.inr ⟨e, List.mem_append_left _ he, hexpression⟩

/-- A claim ends no work. -/
theorem Holds.claims (h : m.Holds report) (hm : m.Numbered) (hclaims : m.Claims t n) :
    n.Holds report := by
  obtain ⟨s, hs, hid, hexpression, hstatus⟩ | ⟨e, he, hid, hstatus⟩ := h
  · have hne : s.id ≠ t.id := by
      intro hsame
      obtain ⟨u, hu, hpending, hgrows⟩ := hclaims.source
      obtain rfl := hm.eq_of_id_eq hs hu (hsame.trans hgrows.id_eq)
      rw [hpending] at hstatus
      cases hstatus
    obtain ⟨u, hu, hstays⟩ := hclaims.kept s hs hne
    exact Or.inl ⟨u, hu, hstays.id_eq.trans hid, hstays.expressionId_eq.trans hexpression,
      hstays.status_eq.trans hstatus⟩
  · refine Or.inr ⟨e, ?_, hid, hstatus⟩
    rw [hclaims.expressions_eq]
    refine mem_mark.mpr ⟨e, he, ?_⟩
    simp [hstatus]

/-- An expression that fails or is finished ends the work on its tasks alone, and failing shows. -/
theorem Holds.close (h : m.Holds report) {id : ExpressionId} {f : Expression → Expression}
    (hid : ∀ e, (f e).id = e.id)
    (howner : report.expressionId = id → ∃ e ∈ m.expressions, e.id = id ∧ (f e).status = .error) :
    ((m.revise id f).drop id).Holds report := by
  by_cases hsame : report.expressionId = id
  · obtain ⟨e, he, heid, hfails⟩ := howner hsame
    exact Or.inr ⟨f e, mem_revise.mpr ⟨e, he, (if_pos heid).symm⟩,
      (hid e).trans (heid.trans hsame.symm), hfails⟩
  · obtain ⟨t, ht, htid, hexpression, hstatus⟩ | ⟨e, he, heid, hstatus⟩ := h
    · exact Or.inl ⟨t, mem_drop.mpr ⟨ht, hexpression ▸ hsame⟩, htid, hexpression, hstatus⟩
    · refine Or.inr ⟨e, mem_revise.mpr ⟨e, he, ?_⟩, heid, hstatus⟩
      rw [if_neg fun heq => hsame (heid.symm.trans heq)]

/-- The report on another task ends no work, but may end its expression. -/
theorem Holds.apply (h : m.Holds report) (hm : m.Orderly) (hne : report.id ≠ other.id) :
    (m.apply other).Holds report := by
  have happlies := apply_cases hm.numbered other
  generalize m.apply other = n at happlies
  cases happlies with
  | dropped => exact h
  | failed t error hawaiting =>
    obtain ⟨ht, -, -⟩ := hm.numbered.of_awaiting? hawaiting
    obtain ⟨e, he, hid, -⟩ := hm.owned t ht
    exact h.close (fun _ => rfl) fun _ => ⟨e, he, hid, rfl⟩
  | completed t hawaiting =>
    obtain ⟨ht, htid, -⟩ := hm.numbered.of_awaiting? hawaiting
    obtain ⟨s, hs, hid, hexpression⟩ | hfailed := h
    · exact Or.inl ⟨s, mem_put_of_ne hs fun heq => hne (hid.symm.trans (heq.trans htid)), hid,
        hexpression⟩
    · exact Or.inr hfailed
  | finished t hawaiting _ hall =>
    obtain ⟨ht, htid, -⟩ := hm.numbered.of_awaiting? hawaiting
    refine h.close (fun _ => rfl) fun hsame => ?_
    obtain ⟨e, he, heid, hopen⟩ := hm.owned t ht
    exfalso
    obtain ⟨s, hs, hid, hexpression, hstatus⟩ | ⟨d, hd, hdid, hstatus⟩ := h
    · have hdone := hall s hs (hexpression.trans hsame) fun heq =>
        hne (hid.symm.trans (heq.trans htid))
      rw [hstatus] at hdone
      cases hdone
    · obtain rfl := hm.numbered.eq_of_expression_id_eq hd he (hdid.trans (hsame.trans heid.symm))
      rw [hstatus] at hopen
      cases hopen

/-- After a claim the claimed task is worked on. -/
theorem holds_of_claims (hclaims : m.Claims t n) (hid : report.id = t.id)
    (hexpression : report.expressionId = t.expressionId) : n.Holds report :=
  Or.inl ⟨t, hclaims.mem, hid.symm, hexpression.symm, hclaims.status_eq⟩

/-! ## Where tasks in processing come from -/

/-- After a claim the tasks in processing are those from before and the claimed one. -/
theorem Claims.processing (h : m.Claims t n) {u : Task} (hu : u ∈ n.tasks)
    (hstatus : u.status = .processing) :
    u.id = t.id ∨ ∃ s ∈ m.tasks, s.id = u.id ∧ s.status = .processing := by
  by_cases hid : u.id = t.id
  · exact Or.inl hid
  · obtain ⟨s, hs, hstays⟩ := h.others u hu hid
    exact Or.inr ⟨s, hs, hstays.id_eq.symm, hstays.status_eq.symm.trans hstatus⟩

/-- After a report on a task, tasks in processing were so before, and that task is none of them. -/
theorem Orderly.processing_apply (h : m.Orderly) {u : Task} (hu : u ∈ (m.apply report).tasks)
    (hstatus : u.status = .processing) : u ∈ m.tasks ∧ u.id ≠ report.id := by
  have happlies := apply_cases h.numbered report
  generalize m.apply report = n at happlies hu
  cases happlies with
  | dropped hawaiting =>
    refine ⟨hu, fun hid => ?_⟩
    rw [h.awaiting?_eq_some hu hstatus hid] at hawaiting
    cases hawaiting
  | failed t _ hawaiting | finished t hawaiting =>
    obtain ⟨ht, htid, -⟩ := h.numbered.of_awaiting? hawaiting
    obtain ⟨hu, hexpression⟩ := mem_drop.mp hu
    refine ⟨hu, fun hid => hexpression ?_⟩
    rw [h.numbered.eq_of_id_eq hu ht (hid.trans htid.symm)]
  | completed t hawaiting =>
    obtain ⟨-, htid, -⟩ := h.numbered.of_awaiting? hawaiting
    rcases mem_put.mp hu with ⟨rfl, -⟩ | ⟨hu, hne⟩
    · cases hstatus
    · exact ⟨hu, fun hid => hne (hid.trans htid.symm)⟩

/-- The tasks of a new expression are all pending. -/
theorem processing_create (now : Instant) (userId : UserId) {formula : String} {graph : TaskGraph}
    (hgraph : Formula.compile formula = .ok graph) {u : Task}
    (hu : u ∈ (m.create now userId formula graph).2.tasks) (hstatus : u.status = .processing) :
    u ∈ m.tasks := by
  rcases List.mem_append.mp hu with hu | hu
  · exact hu
  · obtain ⟨_, _, _, hfresh⟩ := Task.exists_fresh (Formula.shaped_of_compile hgraph) hu
    rw [hfresh.status_eq] at hstatus
    cases hstatus

end Reckoner.Memory
