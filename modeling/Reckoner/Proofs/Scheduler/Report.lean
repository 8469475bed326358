import Reckoner.Proofs.Evaluation
import Reckoner.Proofs.Scheduler.Claim

/-!
# What a report does to the store in memory

A report changes something only if it names a claimed task of an unfinished expression. A failure
then ends the expression; a result completes the task, and ends the expression as well when all of
its tasks are completed. `Memory.apply` says so without a transaction.
-/

namespace Reckoner

namespace Memory

variable {m : Memory}

/-- An expression has its value, and its tasks are gone. -/
def finish (m : Memory) (id : ExpressionId) (value : Binary64) : Memory :=
  (m.revise id fun e => { e with status := .completed, result := some value }).drop id

/-- An expression has failed, and its tasks are gone. -/
def fail (m : Memory) (id : ExpressionId) (error : String) : Memory :=
  (m.revise id fun e => { e with status := .error, error }).drop id

/-- A task has its result; if it was the last one, so has its expression. -/
def complete (m : Memory) (task : Task) (value : Binary64) : Memory :=
  let done := m.put { task with status := .completed, result := some value }
  if (done.tasksOf task.expressionId).all (·.status == .completed) then
    done.finish task.expressionId value
  else done

/-- The task that a report is about, if it is claimed and its expression is not finished. -/
def awaiting? (m : Memory) (report : Report) : Option Task :=
  (m.task? report.id).filter fun task =>
    !((m.expression? task.expressionId).all (·.status.isTerminal)) && task.status == .processing

/-- Applies a report. -/
def apply (m : Memory) (report : Report) : Memory :=
  match m.awaiting? report with
  | none => m
  | some task =>
    match report.failureReason? with
    | some error => m.fail task.expressionId error
    | none => m.complete task report.result

/-- A report that no task awaits changes nothing. -/
theorem apply_eq_self {report : Report} (h : m.awaiting? report = none) : m.apply report = m := by
  simp only [Memory.apply, h]

/-- A failure that a task awaits ends its expression. -/
theorem apply_eq_fail {report : Report} {t : Task} {error : String}
    (h : m.awaiting? report = some t) (hreason : report.failureReason? = some error) :
    m.apply report = m.fail t.expressionId error := by
  simp only [Memory.apply, h, hreason]

end Memory

namespace Scheduler

open Memory

variable {σ : Type} {b : Backing σ} {m : Memory}

/-- Applying a report to a task that awaits one never fails. -/
theorem applyReport_runs (h : m.Joined) {t : Task} (ht : t ∈ m.tasks) (report : Report) :
    Runs b (applyReport t report) m ()
      (match report.failureReason? with
        | some error => m.fail t.expressionId error
        | none => m.complete t (b.kept report.result)) := by
  obtain ⟨e, he, hid⟩ := h.owned t ht
  unfold applyReport
  cases hreason : report.failureReason? with
  | some error =>
    have hfail : m.answerKept b.kept (.failExpression t.expressionId error) =
        .ok ((), m.revise t.expressionId fun e => { e with status := .error, error }) := by
      rw [← hid]
      exact updateExpression_eq he _
    exact Runs.bind (Runs.ask (fun _ _ => trivial) hfail)
      (Runs.bind (Runs.ask (fun _ _ => trivial) rfl) (Runs.log _ _))
  | none =>
    have hfits : b.fits report.result :=
      b.fits_of_isFinite (Report.isFinite_of_failureReason? hreason)
    have hcomplete : m.answerKept b.kept (.completeTask t.id report.result) = .ok ((),
        m.put { t with status := .completed, result := some (b.kept report.result) }) :=
      updateTask_eq h.toNumbered ht _ rfl
    refine Runs.bind (Runs.ask (fun _ _ => hfits) hcomplete)
      (Runs.bind (Runs.ask (fun _ _ => trivial) rfl) ?_)
    have hexpressions := expressions_put m
      { t with status := .completed, result := some (b.kept report.result) }
    unfold complete
    generalize m.put { t with status := .completed, result := some (b.kept report.result) } = done
      at hexpressions
    by_cases hall : (done.tasksOf t.expressionId).all (·.status == .completed) = true
    · have hfinish : done.answerKept b.kept (.completeExpression t.expressionId report.result) =
          .ok ((), done.revise t.expressionId
            fun e => { e with status := .completed, result := some (b.kept report.result) }) := by
        rw [← hid]
        exact updateExpression_eq (hexpressions ▸ he) _
      simp only [hall, if_true]
      exact Runs.bind (Runs.ask (fun _ _ => hfits) hfinish)
        (Runs.bind (Runs.ask (fun _ _ => trivial) rfl) (Runs.log _ _))
    · simp only [hall]
      exact Runs.pure () done

/-- On a store that shows rows which belong together, taking a report never fails, and applies the
report as the store keeps it. -/
theorem completeTask_backed (b : Backing σ) (h : m.Joined) {s : σ} (hs : b.shows s m)
    (report : Report) :
    ∃ events s', (completeTask report).run (b.store.handle b.now) (.of s) =
      ⟨.ok (), events, .of s'⟩ ∧ b.shows s' (m.apply (report.mapNumbers b.kept)) := by
  have hget : Runs b (ask (.getTask report.id)) m (m.task? report.id) m :=
    Runs.ask (fun _ _ => trivial) rfl
  have hreport : (report.mapNumbers b.kept).id = report.id := rfl
  unfold completeTask Memory.apply awaiting?
  rw [hreport]
  cases htask : m.task? report.id with
  | none =>
    rw [htask] at hget
    exact Runs.transact_discard (Runs.bind hget
      (Runs.bind (Runs.log _ m) (Runs.pure (Verdict.discard ()) m))) hs
  | some t =>
    rw [htask] at hget
    obtain ⟨ht, -⟩ := h.task?_eq_some_iff.mp htask
    have hstatus : Runs b (ask (.expressionStatus t.expressionId)) m
        ((m.expression? t.expressionId).map (·.status)) m := Runs.ask (fun _ _ => trivial) rfl
    have hall : ((m.expression? t.expressionId).map (·.status)).all (·.isTerminal) =
        (m.expression? t.expressionId).all (·.status.isTerminal) := by
      cases m.expression? t.expressionId <;> rfl
    cases hterminal : (m.expression? t.expressionId).all (·.status.isTerminal) with
    | true =>
      rw [hterminal] at hall
      simp only [Option.filter_some, hterminal, Bool.not_true, Bool.false_and,
        Bool.false_eq_true, if_false]
      refine @Runs.transact_discard _ _ b m m () _ _ (Runs.bind hget (Runs.bind hstatus ?_)) s hs
      simp only [hall, if_true]
      exact Runs.bind (Runs.log _ m) (Runs.pure (Verdict.discard ()) m)
    | false =>
      rw [hterminal] at hall
      by_cases hclaimed : t.status = .processing
      · simp only [Option.filter_some, hterminal, hclaimed, Bool.not_false, Bool.true_and,
          beq_self_eq_true, if_true, Report.failureReason?_mapNumbers b.nonFiniteError_kept]
        refine Runs.transact_keep (Runs.bind hget (Runs.bind hstatus ?_)) hs
        simp only [hall, hclaimed, Bool.false_eq_true, ne_eq, not_true_eq_false, if_false]
        exact Runs.bind (applyReport_runs h ht report) (Runs.pure (Verdict.keep ()) _)
      · have hne : (t.status == .processing) = false := beq_eq_false_iff_ne.mpr hclaimed
        simp only [Option.filter_some, hterminal, hne, Bool.and_false, Bool.false_eq_true,
          if_false]
        refine @Runs.transact_discard _ _ b m m () _ _ (Runs.bind hget (Runs.bind hstatus ?_)) s hs
        simp only [hall, hclaimed, Bool.false_eq_true, ne_eq, not_false_eq_true, if_false, if_true]
        exact Runs.bind (Runs.log _ m) (Runs.pure (Verdict.discard ()) m)

/-- Taking a report never fails, and applies the report. -/
theorem completeTask_run (now : Instant) (h : m.Joined) (report : Report) :
    ∃ events, (completeTask report).run (Memory.store.handle now) (.of m) =
      ⟨.ok (), events, .of (m.apply report)⟩ := by
  obtain ⟨events, _, hrun, rfl⟩ := completeTask_backed (Memory.backing now) h rfl report
  exact ⟨events, hrun⟩

end Scheduler

end Reckoner
