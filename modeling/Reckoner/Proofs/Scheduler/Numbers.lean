import Reckoner.Proofs.Scheduler.Report

/-!
# Numbers are passed on

The scheduler looks at no number in the store: it copies results into operands and hands tasks out.
So it does the same whatever a function makes of all stored numbers, and of the result in a report,
as long as a report fails an expression before it and after it alike.
-/

namespace Reckoner

variable (f : Binary64 → Binary64)

/-- The task with other numbers. -/
def Task.mapNumbers (t : Task) : Task :=
  { t with args := t.args.map (·.map f), result := t.result.map f }

/-- The expression with another number. -/
def Expression.mapNumbers (e : Expression) : Expression := { e with result := e.result.map f }

namespace Memory

/-- The memory with other numbers. -/
def mapNumbers (m : Memory) : Memory :=
  { m with
    expressions := m.expressions.map (·.mapNumbers f)
    tasks := m.tasks.map (·.mapNumbers f) }

variable (m : Memory)

/-! ## Rows -/

/-- A task is found under its number. -/
theorem task?_mapNumbers (id : TaskId) :
    (m.mapNumbers f).task? id = (m.task? id).map (·.mapNumbers f) := List.find?_map

/-- An expression is found under its number. -/
theorem expression?_mapNumbers (id : ExpressionId) :
    (m.mapNumbers f).expression? id = (m.expression? id).map (·.mapNumbers f) := List.find?_map

/-- The tasks of an expression. -/
theorem tasksOf_mapNumbers (id : ExpressionId) :
    (m.mapNumbers f).tasksOf id = (m.tasksOf id).map (·.mapNumbers f) := List.filter_map ..

/-- A task is written. -/
theorem put_mapNumbers (t : Task) :
    (m.mapNumbers f).put (t.mapNumbers f) = (m.put t).mapNumbers f := by
  unfold put mapNumbers
  simp only [List.map_map]
  congr 1
  refine List.map_congr_left fun u _ => ?_
  change (if u.id = t.id then _ else _) = Task.mapNumbers f (if u.id = t.id then t else u)
  split_ifs <;> rfl

/-- An expression is changed. -/
theorem revise_mapNumbers (id : ExpressionId) {g h : Expression → Expression}
    (hgh : ∀ e, g (e.mapNumbers f) = (h e).mapNumbers f) :
    (m.mapNumbers f).revise id g = (m.revise id h).mapNumbers f := by
  unfold revise mapNumbers
  simp only [List.map_map]
  congr 1
  refine List.map_congr_left fun e _ => ?_
  change (if e.id = id then _ else _) = Expression.mapNumbers f (if e.id = id then h e else e)
  split_ifs
  · exact hgh e
  · rfl

/-- The tasks of an expression are removed. -/
theorem drop_mapNumbers (id : ExpressionId) :
    (m.mapNumbers f).drop id = (m.drop id).mapNumbers f := by
  unfold drop mapNumbers
  rw [List.filter_map]
  rfl

/-- Rows that belong together still do. -/
theorem Joined.mapNumbers {m : Memory} (h : m.Joined) : (m.mapNumbers f).Joined := by
  refine ⟨⟨List.pairwise_map.mpr h.tasks, List.pairwise_map.mpr h.expressions, ?_, ?_⟩, ?_, ?_, ?_⟩
  · exact List.forall_mem_map.mpr h.task_le
  · exact List.forall_mem_map.mpr h.expression_le
  · refine List.forall_mem_map.mpr fun t ht hcompleted => ?_
    change (t.result.map f).isSome = true
    rw [Option.isSome_map]
    exact h.settled t ht hcompleted
  · refine List.forall_mem_map.mpr fun t ht slot hslot hnone => ?_
    have hempty : t.args.get slot = none := by
      change (t.args.map (·.map f)).get slot = none at hnone
      rw [Operands.get_map] at hnone
      exact Option.map_eq_none_iff.mp hnone
    obtain ⟨d, hd, hdependency⟩ := h.supplied t ht slot hslot hempty
    exact ⟨d.mapNumbers f, List.mem_map_of_mem hd, hdependency⟩
  · refine List.forall_mem_map.mpr fun t ht => ?_
    obtain ⟨e, he, hid⟩ := h.owned t ht
    exact ⟨e.mapNumbers f, List.mem_map_of_mem he, hid⟩

/-! ## Claims -/

/-- Results are looked up. -/
theorem result?_mapNumbers (id : TaskId) :
    (m.mapNumbers f).result? id = (m.result? id).map f := by
  unfold result?
  rw [task?_mapNumbers]
  cases m.task? id with
  | none => rfl
  | some t =>
    change (if t.status = .completed then t.result.map f else none) = Option.map f
      (if t.status = .completed then t.result else none)
    split_ifs <;> rfl

/-- Slots are filled. -/
theorem fill_mapNumbers (t : Task) (slots : List Slot) :
    (m.mapNumbers f).fill (t.mapNumbers f) slots =
      ((m.fill t slots).1.mapNumbers f, (m.fill t slots).2) := by
  induction slots generalizing t with
  | nil => rfl
  | cons slot rest ih =>
    unfold fill
    have hargs : (t.mapNumbers f).args.get slot = (t.args.get slot).map f :=
      Operands.get_map ..
    have hdependencies : (t.mapNumbers f).dependencies = t.dependencies := rfl
    have hvalue : (t.dependencies.get slot).bind (m.mapNumbers f).result? =
        ((t.dependencies.get slot).bind m.result?).map f := by
      rw [Option.map_bind]
      exact Option.bind_congr fun id _ => m.result?_mapNumbers f id
    rw [hargs, hdependencies, hvalue]
    cases t.args.get slot with
    | some value => exact ih t
    | none =>
      cases (t.dependencies.get slot).bind m.result? with
      | none => rfl
      | some value =>
        have hset :
            { t.mapNumbers f with args := (t.mapNumbers f).args.set slot (some (f value)) } =
              Task.mapNumbers f { t with args := t.args.set slot (some value) } := by
          cases slot <;> rfl
        change (m.mapNumbers f).fill { t.mapNumbers f with
          args := (t.mapNumbers f).args.set slot (some (f value)) } rest = _
        rw [hset]
        exact ih _

/-- An expression is marked. -/
theorem mark_mapNumbers (id : ExpressionId) :
    (m.mapNumbers f).mark id = (m.mark id).mapNumbers f := by
  refine m.revise_mapNumbers f id fun e => ?_
  change (if e.status = .pending then _ else _) = Expression.mapNumbers f
    (if e.status = .pending then { e with status := .processing } else e)
  split_ifs <;> rfl

/-- The first of some tasks that is ready is claimed. -/
theorem claimFirst_mapNumbers (ts : List Task) :
    (m.mapNumbers f).claimFirst (ts.map (·.mapNumbers f)) =
      ((m.claimFirst ts).1.map (·.mapNumbers f), (m.claimFirst ts).2.mapNumbers f) := by
  induction ts generalizing m with
  | nil => rfl
  | cons t rest ih =>
    rw [List.map_cons]
    unfold claimFirst
    have hfill : (m.mapNumbers f).fill (t.mapNumbers f) (t.mapNumbers f).operation.slots =
      ((m.fill t t.operation.slots).1.mapNumbers f, (m.fill t t.operation.slots).2) :=
      m.fill_mapNumbers f t _
    rw [hfill]
    generalize m.fill t t.operation.slots = filled
    obtain ⟨filled, ready⟩ := filled
    cases ready with
    | true =>
      have hput := m.put_mapNumbers f { filled with status := .processing }
      have hmark := (m.put { filled with status := .processing }).mark_mapNumbers f
        filled.expressionId
      simp only [if_true, Option.map_some]
      rw [← hmark, ← hput]
      rfl
    | false =>
      simp only [Bool.false_eq_true, if_false]
      rw [put_mapNumbers]
      exact ih _

/-- A task is claimed. -/
theorem claim_mapNumbers :
    (m.mapNumbers f).claim = (m.claim.1.map (·.mapNumbers f), m.claim.2.mapNumbers f) := by
  have hpending : (m.mapNumbers f).tasks.filter (·.status == .pending) =
      (m.tasks.filter (·.status == .pending)).map (·.mapNumbers f) := List.filter_map ..
  unfold claim
  rw [hpending, claimFirst_mapNumbers]
  generalize m.claimFirst (m.tasks.filter (·.status == .pending)) = claimed
  obtain ⟨claimed, after⟩ := claimed
  cases claimed <;> rfl

/-! ## Reports -/

/-- The end of an expression. -/
theorem finish_mapNumbers (id : ExpressionId) (value : Binary64) :
    (m.mapNumbers f).finish id (f value) = (m.finish id value).mapNumbers f := by
  unfold finish
  rw [← drop_mapNumbers]
  refine congrArg (fun n : Memory => n.drop id) ?_
  exact m.revise_mapNumbers f id fun _ => rfl

/-- A failure. -/
theorem fail_mapNumbers (id : ExpressionId) (error : String) :
    (m.mapNumbers f).fail id error = (m.fail id error).mapNumbers f := by
  unfold fail
  rw [← drop_mapNumbers]
  refine congrArg (fun n : Memory => n.drop id) ?_
  exact m.revise_mapNumbers f id fun _ => rfl

/-- A result. -/
theorem complete_mapNumbers (t : Task) (value : Binary64) :
    (m.mapNumbers f).complete (t.mapNumbers f) (f value) = (m.complete t value).mapNumbers f := by
  have hput : (m.mapNumbers f).put
      { t.mapNumbers f with status := .completed, result := some (f value) } =
      (m.put { t with status := .completed, result := some value }).mapNumbers f :=
    m.put_mapNumbers f { t with status := .completed, result := some value }
  unfold complete
  rw [hput]
  generalize m.put { t with status := .completed, result := some value } = done
  have hall : ((done.mapNumbers f).tasksOf t.expressionId).all (·.status == .completed) =
      (done.tasksOf t.expressionId).all (·.status == .completed) := by
    rw [tasksOf_mapNumbers, List.all_map]
    rfl
  change (if ((done.mapNumbers f).tasksOf t.expressionId).all (·.status == .completed) = true
    then _ else _) = Memory.mapNumbers f (if _ then _ else _)
  rw [hall]
  split_ifs
  · exact done.finish_mapNumbers f t.expressionId value
  · rfl

/-- The task that a report is about. -/
theorem awaiting?_mapNumbers (report : Report) :
    (m.mapNumbers f).awaiting? (report.mapNumbers f) =
      (m.awaiting? report).map (·.mapNumbers f) := by
  have hall : ∀ id, ((m.mapNumbers f).expression? id).all (·.status.isTerminal) =
      (m.expression? id).all (·.status.isTerminal) := by
    intro id
    rw [expression?_mapNumbers]
    cases m.expression? id <;> rfl
  have htask : (m.mapNumbers f).task? (report.mapNumbers f).id =
      (m.task? report.id).map (·.mapNumbers f) := m.task?_mapNumbers f report.id
  unfold awaiting?
  simp only [hall, htask]
  rw [Option.filter_map]
  rfl

/-- A report is applied. -/
theorem apply_mapNumbers (hf : ∀ x, nonFiniteError (f x) = nonFiniteError x) (report : Report) :
    (m.mapNumbers f).apply (report.mapNumbers f) = (m.apply report).mapNumbers f := by
  unfold apply
  rw [awaiting?_mapNumbers, Report.failureReason?_mapNumbers hf]
  cases m.awaiting? report with
  | none => rfl
  | some t =>
    cases report.failureReason? with
    | some error => exact m.fail_mapNumbers f t.expressionId error
    | none => exact m.complete_mapNumbers f t report.result

end Memory

end Reckoner
