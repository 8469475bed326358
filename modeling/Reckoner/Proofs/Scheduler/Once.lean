import Reckoner.Proofs.Scheduler.Past

/-!
# Each task once

A task is handed out at most once in a whole course, and at most one report on it changes anything,
whatever is reported and how often. A report changes something exactly if it is due: its task has
been handed out, no report on it has changed anything yet, and its expression is unfinished. It then
touches the expression of that task alone.
-/

namespace Reckoner

namespace Memory

variable {m : Memory}

/-- The end of an expression leaves other expressions and their tasks alone. -/
theorem mem_close_iff {id : ExpressionId} {f : Expression → Expression}
    (hid : ∀ e, (f e).id = e.id) :
    (∀ e : Expression, e.id ≠ id →
      (e ∈ ((m.revise id f).drop id).expressions ↔ e ∈ m.expressions)) ∧
    ∀ t : Task, t.expressionId ≠ id → (t ∈ ((m.revise id f).drop id).tasks ↔ t ∈ m.tasks) := by
  refine ⟨fun e hne => ?_, fun t hne => mem_drop.trans (and_iff_left hne)⟩
  refine mem_revise.trans ⟨?_, fun he => ⟨e, he, (if_neg hne).symm⟩⟩
  rintro ⟨d, hd, rfl⟩
  split_ifs at hne ⊢ with hsame
  · exact absurd ((hid d).trans hsame) hne
  · exact hd

end Memory

namespace Course

variable {course : Course} {i j k : Nat}

/-! ## Claims -/

/-- A task is not handed out again. -/
theorem HandsOut.ne_of_lt {s t : Task} (hs : course.HandsOut i s) (hlt : i < j)
    (ht : course.HandsOut j t) : s.id ≠ t.id := by
  intro hid
  obtain ⟨u, hu, hpending, hgrows⟩ := ht.claims.source
  exact hs.ne_pending hlt hu (hgrows.id_eq.symm.trans hid.symm) hpending

/-- A task is handed out at one place only. -/
theorem HandsOut.unique {s t : Task} (hs : course.HandsOut i s) (ht : course.HandsOut j t)
    (hid : s.id = t.id) : i = j := by
  rcases Nat.lt_trichotomy i j with hlt | heq | hlt
  · exact absurd hid (hs.ne_of_lt hlt ht)
  · exact heq
  · exact absurd hid.symm (ht.ne_of_lt hlt hs)

/-! ## Reports -/

/-- No second report on a task changes anything. -/
theorem Applies.ne_of_lt {r s : Report} (hr : course.Applies i r) (hlt : i < j)
    (hs : course.Applies j s) : r.id ≠ s.id := by
  intro hid
  obtain ⟨t, hawaiting⟩ := hs.exists_awaiting?
  obtain ⟨ht, htid, hclaimed⟩ := (course.numbered j).of_awaiting? hawaiting
  rw [hr.completed hlt ht (htid.trans hid.symm)] at hclaimed
  cases hclaimed

/-- A report on a task changes something at one place only. -/
theorem Applies.unique {r s : Report} (hr : course.Applies i r) (hs : course.Applies j s)
    (hid : r.id = s.id) : i = j := by
  rcases Nat.lt_trichotomy i j with hlt | heq | hlt
  · exact absurd hid (hr.ne_of_lt hlt hs)
  · exact heq
  · exact absurd hid.symm (hs.ne_of_lt hlt hr)

/-- A report is due on a task: the task has been handed out, and neither has a report on it changed
anything nor has its expression been finished since. -/
structure Due (course : Course) (k : Nat) (id : TaskId) : Prop where
  /-- The task has been handed out, and its expression is unfinished. -/
  awaited : ∃ i < k, ∃ t, course.HandsOut i t ∧ t.id = id ∧
    ∃ e ∈ (course.memory k).expressions, e.id = t.expressionId ∧ e.status.isTerminal = false
  /-- No report on the task has changed anything. -/
  unreported : ∀ l < k, ∀ report, course.Applies l report → report.id ≠ id

/-- A report that changes something is due. -/
theorem Applies.due {report : Report} (h : course.Applies k report) : course.Due k report.id := by
  obtain ⟨t, hawaiting⟩ := h.exists_awaiting?
  obtain ⟨ht, hid, hclaimed⟩ := (course.numbered k).of_awaiting? hawaiting
  obtain ⟨i, hi, s, hout, hgrows⟩ := Course.exists_handsOut ht (by simp [hclaimed])
  obtain ⟨e, he, heid, hopen⟩ := (course.orderly k).owned t ht
  exact ⟨⟨i, hi, s, hout, hgrows.id_eq.symm.trans hid, e, he,
    heid.trans hgrows.expressionId_eq, hopen⟩, fun l hl earlier hearlier => hearlier.ne_of_lt hl h⟩

/-- A report that is due changes something: its task is still stored, and claimed. -/
theorem Due.applies {report : Report} (h : course.Due k report.id)
    (hstep : course.step k = .complete report) : course.Applies k report := by
  obtain ⟨⟨i, hi, t, hout, hid, e, he, heid, hopen⟩, hunreported⟩ := h
  obtain ⟨u, hu, hgrows⟩ | ⟨f, hf, hfid, hterminal⟩ := task_kept_later hi hout.claims.mem
  · have hclaimed : u.status = .processing := by
      cases hstatus : u.status with
      | pending => exact absurd hstatus (hout.ne_pending hi hu hgrows.id_eq)
      | processing => rfl
      | completed =>
        obtain ⟨l, hl, earlier, happlies, hearlier, -⟩ := exists_applies hu hstatus
        exact absurd (hearlier.trans (hgrows.id_eq.trans hid)) (hunreported l hl earlier happlies)
    exact applies_of_awaiting? hstep
      ((course.orderly k).awaiting?_eq_some hu hclaimed (hgrows.id_eq.trans hid))
  · obtain rfl := (course.numbered k).eq_of_expression_id_eq hf he (hfid.trans heid.symm)
    rw [hopen] at hterminal
    cases hterminal

/-- A report touches the expression of its task alone. -/
theorem Applies.mem_iff {report : Report} (h : course.Applies k report) {t : Task}
    (hout : course.HandsOut i t) (hid : report.id = t.id) :
    (∀ e : Expression, e.id ≠ t.expressionId →
      (e ∈ (course.memory (k + 1)).expressions ↔ e ∈ (course.memory k).expressions)) ∧
    ∀ u : Task, u.expressionId ≠ t.expressionId →
      (u ∈ (course.memory (k + 1)).tasks ↔ u ∈ (course.memory k).tasks) := by
  obtain ⟨j, hj, s, hsout, hsid⟩ := h.exists_handsOut
  obtain rfl := hout.unique hsout (hid.symm.trans hsid.symm)
  obtain ⟨v, hawaiting⟩ := h.exists_awaiting?
  obtain ⟨hv, hvid, hclaimed⟩ := (course.numbered k).of_awaiting? hawaiting
  have howner : v.expressionId = t.expressionId :=
    (grows_of_le hj hout.claims.mem hv (hvid.trans hid)).expressionId_eq
  rw [← howner, course.memory_complete_of_orderly (course.orderly k) h.1]
  obtain ⟨_, -, hafter⟩ | ⟨-, -, hafter⟩ | ⟨-, -, hafter⟩ :=
    Memory.apply_of_awaiting? (course.numbered k) hawaiting
  · rw [hafter]
    exact Memory.mem_close_iff fun _ => rfl
  · rw [hafter]
    refine ⟨fun _ _ => Iff.rfl, fun u hne => Memory.mem_put.trans ⟨?_, fun hu => ?_⟩⟩
    · rintro (⟨rfl, -⟩ | ⟨hu, -⟩)
      · exact absurd rfl hne
      · exact hu
    · refine Or.inr ⟨hu, fun huid => hne ?_⟩
      exact congrArg Task.expressionId ((course.numbered k).eq_of_id_eq hu hv huid)
  · rw [hafter]
    exact Memory.mem_close_iff fun _ => rfl

/-! ## Whole courses -/

/-- What holds of claims and reports over a whole course. -/
structure OncePerTask (course : Course) : Prop where
  /-- A task is handed out at most once. -/
  handsOut_unique : ∀ i j s t, course.HandsOut i s → course.HandsOut j t → s.id = t.id → i = j
  /-- At most one report on a task changes what is stored. -/
  applies_unique : ∀ i j r s, course.Applies i r → course.Applies j s → r.id = s.id → i = j
  /-- It is the first one behind the claim while the expression is unfinished; any other report
  leaves everything as it was. -/
  changes_iff : ∀ k report, course.step k = .complete report →
    (course.memory (k + 1) ≠ course.memory k ↔ course.Due k report.id)
  /-- New tasks have other numbers than all tasks stored so far. -/
  number_new : ∀ k e graph, course.Creates k e graph → ∀ t ∈ course.newTasks k e graph,
    ∀ i ≤ k, ∀ s ∈ (course.memory i).tasks, s.id < t.id
  /-- What is stored with the number of an earlier task is that task, of the same expression. -/
  same_task : ∀ i l, i ≤ l → ∀ s ∈ (course.memory i).tasks, ∀ u ∈ (course.memory l).tasks,
    u.id = s.id → s.Grows u
  /-- A report touches no expression but that of the task that was handed out with its number. -/
  touches : ∀ i k t report, course.HandsOut i t → course.Applies k report → report.id = t.id →
    (∀ e : Expression, e.id ≠ t.expressionId →
      (e ∈ (course.memory (k + 1)).expressions ↔ e ∈ (course.memory k).expressions)) ∧
    ∀ u : Task, u.expressionId ≠ t.expressionId →
      (u ∈ (course.memory (k + 1)).tasks ↔ u ∈ (course.memory k).tasks)

/-- **Each task is handed out at most once, and at most one report on it changes anything**: the
first one behind the claim, unless the expression has been finished before it. Any other report,
whatever task it names, leaves everything as it was. Numbers of tasks are never given out again, so
a late report cannot reach another expression. -/
theorem once_per_task (course : Course) : course.OncePerTask where
  handsOut_unique _ _ _ _ hs ht hid := hs.unique ht hid
  applies_unique _ _ _ _ hr hs hid := hr.unique hs hid
  changes_iff _ _ hstep := ⟨fun hchanged => Applies.due ⟨hstep, hchanged⟩,
    fun hdue => (hdue.applies hstep).2⟩
  number_new _ _ _ _ _ ht i hi s hs :=
    Int.lt_of_le_of_lt
      (Int.le_trans ((course.numbered i).task_le s hs) (course.lastTask_mono hi))
      (lastTask_lt ht)
  same_task _ _ hle _ hs _ hu hid := grows_of_le hle hs hu hid
  touches _ _ _ _ hout happlies hid := happlies.mem_iff hout hid

/-- In the sample the report on the inner minus is applied, and its repetition leaves everything as
it was. -/
theorem once_per_task_sample :
    sample.Applies 5 (.success 1 1 ⟨0xc000000000000000⟩) ∧
      sample.step 11 = .complete (.success 1 1 ⟨0⟩) ∧ sample.memory 12 = sample.memory 11 := by
  have happlies : sample.Applies 5 (.success 1 1 ⟨0xc000000000000000⟩) :=
    ⟨rfl, by decide +kernel⟩
  refine ⟨happlies, rfl, ?_⟩
  by_contra hchanged
  have hsame := (once_per_task sample).applies_unique 5 11 _ (.success 1 1 ⟨0⟩) happlies
    ⟨rfl, hchanged⟩ rfl
  cases hsame

end Course

end Reckoner
