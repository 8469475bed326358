import Mathlib.Tactic.Common
import Reckoner.Scheduler
import Reckoner.Store.Basic

/-!
# Bodies of transactions

What a scheduler call does between the opening and the closing of its transaction: it puts queries
and writes events, and the first error of the store ends it. `readTask` and `completeTask` are
transactions with the bodies `claimReady` and `judge`.
-/

namespace Reckoner

/-- No task becomes pending again by it. -/
def Query.Forward : Query → Prop
  | setTaskStatus _ status => status ≠ .pending
  | _ => True

/-- Only a commit changes the data. -/
theorem Store.committed_handle {δ : Type} (store : Store δ) (now : Instant) (request : Request)
    (hne : request ≠ .commit) (s : Transacted δ) :
    (store.handle now request s).2.committed = s.committed := by
  cases request with
  | begin =>
    simp only [handle]
    cases store.admits s.committed <;> rfl
  | commit => exact absurd rfl hne
  | rollback => rfl
  | query q =>
    simp only [handle]
    cases store.answer now q s.working <;> rfl

namespace Scheduler

variable {α β σ : Type}

/-- An action that neither opens nor closes a transaction, that an error of the store ends, and that
puts no task back. -/
inductive Guarded : Action α → Prop
  | done (result : Except SchedulerError α) : Guarded (Call.done result)
  | note (event : Event) {rest : Action α} (hrest : Guarded rest) : Guarded (Call.note event rest)
  | ask (q : Query) (hforward : q.Forward)
      {next : Except StoreError (Request.query q).Answer → Action α}
      (hnext : ∀ answer, Guarded (next (.ok answer)))
      (herror : ∀ e, next (.error e) = Call.done (.error (.storage e))) :
      Guarded (Call.ask (.query q) next)

namespace Guarded

/-- A value asks for nothing. -/
theorem pure (a : α) : Guarded (Pure.pure a : Action α) := .done (.ok a)

/-- An action may be given up. -/
theorem throw (e : SchedulerError) : Guarded (throw e : Action α) := .done (.error e)

/-- A query. -/
theorem query {q : Query} (hforward : q.Forward) : Guarded (Scheduler.ask q) :=
  .ask q hforward (fun answer => .done (.ok answer)) fun _ => rfl

/-- An event. -/
theorem log (event : Event) : Guarded (Scheduler.log event) := .note event (.done (.ok ()))

/-- Two actions in a row. -/
theorem bind {action : Action α} {f : α → Action β} (h : Guarded action)
    (hf : ∀ a, Guarded (f a)) : Guarded (action >>= f) := by
  change Guarded (Call.bind action (ExceptT.bindCont f) : Action β)
  induction h with
  | done result =>
    cases result with
    | ok a => exact hf a
    | error e => exact .done (.error e)
  | note event _ ih => exact .note event ih
  | ask q hforward _ herror ih =>
    refine .ask q hforward ih fun e => ?_
    rw [herror]
    rfl

end Guarded

/-! ## The parts of the scheduler -/

/-- Filling slots only puts queries. -/
theorem guarded_fillSlots (task : Task) (slots : List Slot) : Guarded (fillSlots task slots) := by
  induction slots generalizing task with
  | nil => exact .pure _
  | cons slot rest ih =>
    unfold fillSlots
    cases task.args.get slot with
    | some value => exact ih task
    | none =>
      cases task.dependencies.get slot with
      | none => exact .throw _
      | some id =>
        refine .bind (.query trivial) fun found => ?_
        cases found with
        | none => exact .throw _
        | some dependency =>
          dsimp only
          split_ifs
          · exact .pure none
          · cases dependency.result with
            | none => exact .throw _
            | some value => exact .bind (.query trivial) fun _ => ih _

/-- Claiming a task only puts queries. -/
theorem guarded_claimFirst (tasks : List Task) : Guarded (claimFirst tasks) := by
  induction tasks with
  | nil => exact .pure none
  | cons task rest ih =>
    unfold claimFirst
    refine .bind (guarded_fillSlots task _) fun filled => ?_
    cases filled with
    | none => exact ih
    | some filled =>
      have hclaimed : (Query.setTaskStatus filled.id .processing).Forward := by simp [Query.Forward]
      exact .bind (.query hclaimed) fun _ => .bind (.query trivial) fun _ => .pure _

/-- Applying a report puts queries and writes events. -/
theorem guarded_applyReport (task : Task) (report : Report) :
    Guarded (applyReport task report) := by
  unfold applyReport
  cases report.failureReason? with
  | some error => exact .bind (.query trivial) fun _ => .bind (.query trivial) fun _ => .log _
  | none =>
    refine .bind (.query trivial) fun _ => .bind (.query trivial) fun tasks => ?_
    split_ifs
    · exact .bind (.query trivial) fun _ => .bind (.query trivial) fun _ => .log _
    · exact .pure ()

/-! ## Running a body -/

/-- A run goes on with the value of an action, and ends with its error. -/
theorem run_bind (handle : Handler σ) (action : Action α) (f : α → Action β) (s : σ) :
    Call.run handle (action >>= f : Action β) s =
      let first := Call.run handle action s
      match first.answer with
      | .ok a =>
        let second := Call.run handle (f a) first.state
        ⟨second.answer, first.events ++ second.events, second.state⟩
      | .error e => ⟨.error e, first.events, first.state⟩ := by
  change Call.run handle (Call.bind action (ExceptT.bindCont f) : Action β) s = _
  rw [Call.run_bind]
  generalize Call.run handle action s = first
  obtain ⟨answer, events, state⟩ := first
  cases answer with
  | ok a => rfl
  | error e =>
    change Reply.mk (Except.error e) (events ++ []) state = _
    rw [List.append_nil]

/-- A run puts a query. -/
theorem run_ask (handle : Handler σ) (q : Query) (s : σ) :
    Call.run handle (ask q) s =
      ⟨(handle (.query q) s).1.mapError .storage, [], (handle (.query q) s).2⟩ := by
  unfold ask
  simp only [Call.run]
  cases (handle (.query q) s).1 <;> rfl

/-- A run closes a transaction. -/
theorem run_close (handle : Handler σ) (request : Request) (value : α) (s : σ) :
    (close request value).run handle s =
      ⟨((handle request s).1.map fun _ => value).mapError .storage, [],
        (handle request s).2⟩ := by
  unfold close
  simp only [Call.run]
  cases (handle request s).1 <;> rfl

/-! ## Around a body -/

/-- Closes a transaction by what has become of its body. -/
def settle (undoFailed : String → Event) :
    Except SchedulerError (Verdict α) → Call (Except SchedulerError α)
  | .ok (.keep value) => close .commit value
  | .ok (.discard value) => close .rollback value
  | .error e => .ask .rollback fun
    | .ok _ => .done (.error e)
    | .error undo => .note (undoFailed undo.message) (.done (.error e))

/-- A transaction is opened, runs its body and is closed. -/
theorem transact_eq (undoFailed : String → Event) (body : Action (Verdict α)) :
    transact undoFailed body = Call.ask .begin fun
      | .error e => .done (.error (.storage e))
      | .ok _ => Call.bind body (settle undoFailed) := by
  unfold transact
  congr 1

/-! ## The two bodies -/

/-- Claims a task, if one is ready; if none is, nothing that has been filled is kept. -/
def claimReady : Action (Verdict (Option Task)) := do
  match ← claimFirst (← ask .pendingTasks) with
  | some task => pure (.keep (some task))
  | none => pure (.discard none)

/-- Applies a report, or discards it as stale. -/
def judge (report : Report) : Action (Verdict Unit) := do
  match ← ask (.getTask report.id) with
  | none => do
    log (.unknownTask report.id report.expressionId)
    pure (.discard ())
  | some task => do
    let status ← ask (.expressionStatus task.expressionId)
    if status.all (·.isTerminal) then do
      log (.finishedExpression task.id task.expressionId)
      pure (.discard ())
    else if task.status ≠ .processing then do
      log (.unclaimedTask task.id task.expressionId)
      pure (.discard ())
    else do
      applyReport task report
      pure (.keep ())

/-- Reading a task is a transaction. -/
theorem readTask_eq_transact : readTask = transact .claimRollbackFailed claimReady := rfl

/-- Taking a report is a transaction. -/
theorem completeTask_eq_transact (report : Report) :
    completeTask report = transact .reportRollbackFailed (judge report) := rfl

/-- Claiming a ready task only puts queries. -/
theorem guarded_claimReady : Guarded claimReady := by
  refine .bind (.query trivial) fun tasks => .bind (guarded_claimFirst tasks) fun claimed => ?_
  cases claimed with
  | some task => exact .pure _
  | none => exact .pure _

/-- Judging a report puts queries and writes events. -/
theorem guarded_judge (report : Report) : Guarded (judge report) := by
  refine .bind (.query trivial) fun found => ?_
  cases found with
  | none => exact .bind (.log _) fun _ => .pure _
  | some task =>
    refine .bind (.query trivial) fun status => ?_
    split_ifs
    · exact .bind (.log _) fun _ => .pure _
    · exact .bind (.log _) fun _ => .pure _
    · exact .bind (guarded_applyReport task report) fun _ => .pure _

end Scheduler

end Reckoner
