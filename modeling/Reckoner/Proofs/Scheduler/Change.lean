import Mathlib.Data.Nat.Init
import Reckoner.Proofs.Scheduler.Course

/-!
# How rows change

A call leaves a stored task alone, hands it out, or completes it; it leaves an expression alone,
begins it, or ends it. A row that was not there before is that of a new expression, and a task goes
only when its expression ends.
-/

namespace Reckoner.Course

variable {course : Course} {k : Nat}

/-- What the call at a place makes of a stored task. -/
inductive TurnsTask (course : Course) (k : Nat) (s u : Task) : Prop
  | stays (hstays : s.Stays u)
  | claimed (hout : course.HandsOut k u) (hbefore : s.status = .pending)
      (hafter : u.status = .processing) (hgrows : s.Grows u)
  | completed (report : Report) (happlies : course.Applies k report) (hid : report.id = s.id)
      (hreason : report.failureReason? = none) (hbefore : s.status = .processing)
      (hafter : u = { s with status := .completed, result := some report.result })

/-- What the call at a place makes of an expression. -/
inductive TurnsExpression (course : Course) (k : Nat) (d e : Expression) : Prop
  | stays (hafter : e = d)
  | begun (t : Task) (hout : course.HandsOut k t) (howner : t.expressionId = d.id)
      (hbefore : d.status = .pending) (hafter : e = { d with status := .processing })
  | failed (report : Report) (t : Task) (error : String) (happlies : course.Applies k report)
      (hawaiting : (course.memory k).awaiting? report = some t) (howner : t.expressionId = d.id)
      (hreason : report.failureReason? = some error) (hbefore : d.status = .processing)
      (hafter : e = { d with status := .error, error })
  | completed (report : Report) (t : Task) (happlies : course.Applies k report)
      (hawaiting : (course.memory k).awaiting? report = some t) (howner : t.expressionId = d.id)
      (hreason : report.failureReason? = none)
      (hall : ∀ u ∈ (course.memory k).tasks, u.expressionId = d.id → u.id ≠ t.id →
        u.status = .completed)
      (hbefore : d.status = .processing)
      (hafter : e = { d with status := .completed, result := some report.result })

/-- A stored task keeps what identifies it, and its operands. -/
theorem TurnsTask.grows {s u : Task} (h : course.TurnsTask k s u) : s.Grows u := by
  cases h with
  | stays hstays => exact hstays.toGrows
  | claimed _ _ _ hgrows => exact hgrows
  | completed report _ _ _ _ hafter =>
    subst hafter
    exact ⟨rfl, rfl, rfl, rfl, fun _ _ hargs => hargs⟩

/-- An expression that awaits a report is being worked on. -/
theorem processing_of_awaiting? {report : Report} {t : Task}
    (hawaiting : (course.memory k).awaiting? report = some t) {d : Expression}
    (hd : d ∈ (course.memory k).expressions) (howner : t.expressionId = d.id) :
    d.status = .processing := by
  obtain ⟨ht, -, hclaimed⟩ := (course.numbered k).of_awaiting? hawaiting
  exact (course.orderly k).processing ht (by simp [hclaimed]) hd howner.symm

/-- A task behind a call was there before, or is new. -/
theorem task_source {u : Task} (hu : u ∈ (course.memory (k + 1)).tasks) :
    (∃ s ∈ (course.memory k).tasks, course.TurnsTask k s u) ∨
      ∃ e graph, course.Creates k e graph ∧ u ∈ course.newTasks k e graph := by
  have hsame : u ∈ (course.memory k).tasks → ∃ s ∈ (course.memory k).tasks,
      course.TurnsTask k s u := fun hu => ⟨u, hu, .stays (.refl u)⟩
  cases course.effect k with
  | idle hmemory =>
    rw [hmemory] at hu
    exact Or.inl (hsame hu)
  | created e graph hcreates =>
    rw [hcreates.tasks_eq] at hu
    rcases List.mem_append.mp hu with hu | hu
    · exact Or.inl (hsame hu)
    · exact Or.inr ⟨e, graph, hcreates, hu⟩
  | claimed t hout =>
    have hclaims := hout.claims
    by_cases hid : u.id = t.id
    · obtain rfl := (course.numbered (k + 1)).eq_of_id_eq hu hclaims.mem hid
      obtain ⟨s, hs, hpending, hgrows⟩ := hclaims.source
      exact Or.inl ⟨s, hs, .claimed hout hpending hclaims.status_eq hgrows⟩
    · obtain ⟨s, hs, hstays⟩ := hclaims.others u hu hid
      exact Or.inl ⟨s, hs, .stays hstays⟩
  | failed report t error _ _ _ hmemory =>
    rw [hmemory] at hu
    exact Or.inl (hsame (Memory.mem_drop.mp hu).1)
  | completed report t happlies hawaiting hreason _ hmemory =>
    rw [hmemory] at hu
    obtain ⟨ht, hid, hclaimed⟩ := (course.numbered k).of_awaiting? hawaiting
    rcases Memory.mem_put.mp hu with ⟨rfl, -⟩ | ⟨hu, -⟩
    · exact Or.inl ⟨t, ht, .completed report happlies hid.symm hreason hclaimed rfl⟩
    · exact Or.inl (hsame hu)
  | finished report t _ _ _ _ hmemory =>
    rw [hmemory] at hu
    exact Or.inl (hsame (Memory.mem_drop.mp hu).1)

/-- The end of an expression keeps the tasks of others. -/
theorem task_kept_of_close {s : Task} (hs : s ∈ (course.memory k).tasks) {id : ExpressionId}
    {f : Expression → Expression}
    (hmemory : course.memory (k + 1) = ((course.memory k).revise id f).drop id)
    (hid : ∀ e, (f e).id = e.id) (hterminal : ∀ e, (f e).status.isTerminal = true) :
    (∃ u ∈ (course.memory (k + 1)).tasks, course.TurnsTask k s u) ∨
      ∃ e ∈ (course.memory (k + 1)).expressions, e.id = s.expressionId ∧
        e.status.isTerminal = true := by
  rw [hmemory]
  by_cases howner : s.expressionId = id
  · obtain ⟨d, hd, hdid, -⟩ := (course.orderly k).owned s hs
    refine Or.inr ⟨f d, Memory.mem_revise.mpr ⟨d, hd, ?_⟩, (hid d).trans hdid, hterminal d⟩
    rw [if_pos (hdid.trans howner)]
  · exact Or.inl ⟨s, Memory.mem_drop.mpr ⟨hs, howner⟩, .stays (.refl s)⟩

/-- A task is kept by a call, unless its expression ends. -/
theorem task_kept {s : Task} (hs : s ∈ (course.memory k).tasks) :
    (∃ u ∈ (course.memory (k + 1)).tasks, course.TurnsTask k s u) ∨
      ∃ e ∈ (course.memory (k + 1)).expressions, e.id = s.expressionId ∧
        e.status.isTerminal = true := by
  cases course.effect k with
  | idle hmemory =>
    rw [hmemory]
    exact Or.inl ⟨s, hs, .stays (.refl s)⟩
  | created e graph _ hmemory =>
    rw [hmemory]
    exact Or.inl ⟨s, List.mem_append_left _ hs, .stays (.refl s)⟩
  | claimed t hout =>
    have hclaims := hout.claims
    by_cases hid : s.id = t.id
    · obtain ⟨s', hs', hpending, hgrows⟩ := hclaims.source
      obtain rfl := (course.numbered k).eq_of_id_eq hs hs' (hid.trans hgrows.id_eq)
      exact Or.inl ⟨t, hclaims.mem, .claimed hout hpending hclaims.status_eq hgrows⟩
    · obtain ⟨u, hu, hstays⟩ := hclaims.kept s hs hid
      exact Or.inl ⟨u, hu, .stays hstays⟩
  | failed report t error _ _ _ hmemory =>
    exact task_kept_of_close hs hmemory (fun _ => rfl) fun _ => rfl
  | completed report t happlies hawaiting hreason _ hmemory =>
    rw [hmemory]
    obtain ⟨ht, htid, hclaimed⟩ := (course.numbered k).of_awaiting? hawaiting
    by_cases hid : s.id = t.id
    · obtain rfl := (course.numbered k).eq_of_id_eq hs ht hid
      exact Or.inl ⟨_, Memory.mem_put_self hs rfl,
        .completed report happlies htid.symm hreason hclaimed rfl⟩
    · exact Or.inl ⟨s, Memory.mem_put_of_ne hs hid, .stays (.refl s)⟩
  | finished report t _ _ _ _ hmemory =>
    exact task_kept_of_close hs hmemory (fun _ => rfl) fun _ => rfl

/-- An expression behind a call was there before, or is new. -/
theorem expression_source {e : Expression} (he : e ∈ (course.memory (k + 1)).expressions) :
    (∃ d ∈ (course.memory k).expressions, course.TurnsExpression k d e) ∨
      ∃ graph, course.Creates k e graph ∧ e.status = .pending := by
  cases course.effect k with
  | idle hmemory =>
    rw [hmemory] at he
    exact Or.inl ⟨e, he, .stays rfl⟩
  | created f graph hcreates hmemory =>
    rw [hmemory] at he
    rcases List.mem_append.mp he with he | he
    · exact Or.inl ⟨e, he, .stays rfl⟩
    · rw [List.mem_singleton.mp he]
      exact Or.inr ⟨graph, ⟨hcreates.step_eq, hcreates.compiled, rfl⟩, rfl⟩
  | claimed t hout =>
    rw [hout.claims.expressions_eq] at he
    obtain ⟨d, hd, rfl⟩ := Memory.mem_mark.mp he
    refine Or.inl ⟨d, hd, ?_⟩
    split_ifs with hbegins
    · exact .begun t hout hbegins.1.symm hbegins.2 rfl
    · exact .stays rfl
  | failed report t error happlies hawaiting hreason hmemory =>
    rw [hmemory] at he
    obtain ⟨d, hd, rfl⟩ := Memory.mem_revise.mp he
    refine Or.inl ⟨d, hd, ?_⟩
    split_ifs with hid
    · exact .failed report t error happlies hawaiting hid.symm hreason
        (processing_of_awaiting? hawaiting hd hid.symm) rfl
    · exact .stays rfl
  | completed report t _ _ _ _ hmemory =>
    rw [hmemory] at he
    exact Or.inl ⟨e, he, .stays rfl⟩
  | finished report t happlies hawaiting hreason hall hmemory =>
    rw [hmemory] at he
    obtain ⟨d, hd, rfl⟩ := Memory.mem_revise.mp he
    refine Or.inl ⟨d, hd, ?_⟩
    split_ifs with hid
    · exact .completed report t happlies hawaiting hid.symm hreason
        (fun u hu howner => hall u hu (howner.trans hid))
        (processing_of_awaiting? hawaiting hd hid.symm) rfl
    · exact .stays rfl

/-- What identifies an expression does not change. -/
theorem TurnsExpression.id_eq {d e : Expression} (h : course.TurnsExpression k d e) :
    e.id = d.id := by
  cases h with
  | stays hafter | begun _ _ _ _ hafter | failed _ _ _ _ _ _ _ _ hafter
  | completed _ _ _ _ _ _ _ _ hafter => rw [hafter]

/-- Nothing follows the end of an expression. -/
theorem TurnsExpression.eq_of_isTerminal {d e : Expression} (h : course.TurnsExpression k d e)
    (hterminal : d.status.isTerminal = true) : e = d := by
  cases h with
  | stays hafter => exact hafter
  | begun _ _ _ hbefore | failed _ _ _ _ _ _ _ hbefore | completed _ _ _ _ _ _ _ hbefore =>
    rw [hbefore] at hterminal
    cases hterminal

/-- No expression is lost by a call. -/
theorem exists_expression {d : Expression} (hd : d ∈ (course.memory k).expressions) :
    ∃ e ∈ (course.memory (k + 1)).expressions, e.id = d.id := by
  have hrevise : ∀ {id : ExpressionId} {f : Expression → Expression}, (∀ e, (f e).id = e.id) →
      ∃ e ∈ ((course.memory k).revise id f).expressions, e.id = d.id := by
    intro id f hid
    refine ⟨_, Memory.mem_revise.mpr ⟨d, hd, rfl⟩, ?_⟩
    split_ifs
    · exact hid d
    · rfl
  cases course.effect k with
  | idle hmemory => exact ⟨d, hmemory ▸ hd, rfl⟩
  | created e graph _ hmemory =>
    rw [hmemory]
    exact ⟨d, List.mem_append_left _ hd, rfl⟩
  | claimed t hout =>
    rw [hout.claims.expressions_eq]
    refine hrevise fun e => ?_
    split_ifs <;> rfl
  | failed report t error _ _ _ hmemory =>
    rw [hmemory]
    exact hrevise fun _ => rfl
  | completed report t _ _ _ _ hmemory =>
    rw [hmemory]
    exact ⟨d, hd, rfl⟩
  | finished report t _ _ _ _ hmemory =>
    rw [hmemory]
    exact hrevise fun _ => rfl

/-- The largest numbers given out never become smaller. -/
theorem last_le (course : Course) (k : Nat) :
    (course.memory k).lastTask ≤ (course.memory (k + 1)).lastTask ∧
      (course.memory k).lastExpression ≤ (course.memory (k + 1)).lastExpression := by
  cases course.effect k with
  | idle hmemory => simp [hmemory]
  | created e graph _ hmemory =>
    rw [hmemory]
    exact ⟨Int.le_add_of_nonneg_right (Int.natCast_nonneg _), Int.le_of_lt (Int.lt_succ _)⟩
  | claimed t hout =>
    rw [hout.claims.lastTask_eq, hout.claims.lastExpression_eq]
    exact ⟨Int.le_refl _, Int.le_refl _⟩
  | failed _ _ _ _ _ _ hmemory | completed _ _ _ _ _ _ hmemory
  | finished _ _ _ _ _ _ hmemory =>
    rw [hmemory]
    exact ⟨Int.le_refl _, Int.le_refl _⟩

/-- An expression is kept by a call. -/
theorem expression_kept {d : Expression} (hd : d ∈ (course.memory k).expressions) :
    ∃ e ∈ (course.memory (k + 1)).expressions, course.TurnsExpression k d e := by
  obtain ⟨e, he, hid⟩ := exists_expression hd
  obtain ⟨d', hd', hturns⟩ | ⟨graph, hcreates, -⟩ := expression_source he
  · obtain rfl := (course.numbered k).eq_of_expression_id_eq hd' hd (hturns.id_eq.symm.trans hid)
    exact ⟨e, he, hturns⟩
  · have hle := (course.numbered k).expression_le d hd
    rw [← hid, hcreates.id_eq] at hle
    exact absurd hle (Int.not_le_of_gt (Int.lt_succ _))

/-- What every call keeps of an expression is kept for good. -/
theorem later {P : Expression → Prop}
    (hturns : ∀ k d e, course.TurnsExpression k d e → P d → P e) {i l : Nat} (hle : i ≤ l)
    {d : Expression} (hd : d ∈ (course.memory i).expressions) (hbefore : P d) :
    ∃ e ∈ (course.memory l).expressions, e.id = d.id ∧ P e := by
  induction l, hle using Nat.le_induction with
  | base => exact ⟨d, hd, rfl, hbefore⟩
  | succ l _ ih =>
    obtain ⟨e, he, hid, hp⟩ := ih
    obtain ⟨f, hf, hturn⟩ := expression_kept he
    exact ⟨f, hf, hturn.id_eq.trans hid, hturns l e f hturn hp⟩

end Reckoner.Course
