import Reckoner.Proofs.Scheduler.Orderly
import Reckoner.Service

/-!
# Courses of calls

Users submit formulas, workers ask for tasks and submit reports, which may say anything about any
task. A course is an endless sequence of such calls on an empty store; whatever happens within
finitely many calls happens at the first places of some course. `Course.effect` says what one call
can do; what a whole course keeps follows from it by induction on the places.
-/

namespace Reckoner

/-- A call from outside. -/
inductive Step where
  | submit (userId : UserId) (formula : String)
  | read
  | complete (report : Report)

/-- What a call makes of the store in memory. -/
def Step.act (now : Instant) (m : Memory) : Step → Memory
  | submit userId formula => (Service.submit Memory.store now userId formula m).state
  | read => (Scheduler.readTask.run (Memory.store.handle now) (.of m)).state.committed
  | complete report =>
    ((Scheduler.completeTask report).run (Memory.store.handle now) (.of m)).state.committed

/-- On a store in order, asking for a task claims one if one is ready. -/
theorem Step.act_read {m : Memory} (h : m.Orderly) (now : Instant) :
    Step.read.act now m = m.claim.2 := by
  obtain ⟨events, hrun⟩ := Scheduler.readTask_run now h.joined
  rw [Step.act, hrun]
  rfl

/-- On a store in order, a report is applied. -/
theorem Step.act_complete {m : Memory} (h : m.Orderly) (now : Instant) (report : Report) :
    (Step.complete report).act now m = m.apply report := by
  obtain ⟨events, hrun⟩ := Scheduler.completeTask_run now h.joined report
  rw [Step.act, hrun]
  rfl

/-- An endless sequence of calls. -/
structure Course where
  /-- When each call comes. -/
  time : Nat → Instant
  /-- What is called for. -/
  step : Nat → Step

namespace Course

/-- What is stored before the call at a place; nothing before the first one. -/
def memory (course : Course) : Nat → Memory
  | 0 => .empty
  | k + 1 => (course.step k).act (course.time k) (course.memory k)

/-- What a worker is answered who asks for a task at a place. -/
def answer (course : Course) (k : Nat) : Except SchedulerError (Option Task) :=
  (Scheduler.readTask.run (Memory.store.handle (course.time k)) (.of (course.memory k))).answer

/-- The call at a place hands out a task. -/
def HandsOut (course : Course) (k : Nat) (t : Task) : Prop :=
  course.step k = .read ∧ course.answer k = .ok (some t)

/-- The call at a place is a report that changes what is stored. -/
def Applies (course : Course) (k : Nat) (report : Report) : Prop :=
  course.step k = .complete report ∧ course.memory (k + 1) ≠ course.memory k

/-- The call at a place stores an expression with the tasks of its graph. -/
structure Creates (course : Course) (k : Nat) (e : Expression) (graph : TaskGraph) : Prop where
  step_eq : course.step k = .submit e.userId e.formula
  compiled : Formula.compile e.formula = .ok graph
  id_eq : e.id = (course.memory k).lastExpression + 1

/-- The tasks with which an expression is stored at a place, one for each node of its graph. -/
def newTasks (course : Course) (k : Nat) (e : Expression) (graph : TaskGraph) : List Task :=
  Task.ofGraph e.id (course.memory k).lastTask graph

variable (course : Course) {k : Nat}

/-! ## Single calls -/

/-- What is stored behind a submission. -/
theorem memory_submit {userId : UserId} {formula : String}
    (hstep : course.step k = .submit userId formula) :
    course.memory (k + 1) = match Formula.compile formula with
      | .ok graph => ((course.memory k).create (course.time k) userId formula graph).2
      | .error _ => course.memory k := by
  rw [memory, hstep, Step.act, Service.submit]
  cases Formula.compile formula <;> rfl

/-- Asking for a task never fails on a store in order. -/
theorem answer_eq_of_orderly (h : (course.memory k).Orderly) :
    course.answer k = .ok (course.memory k).claim.1 := by
  obtain ⟨events, hrun⟩ := Scheduler.readTask_run (course.time k) h.joined
  rw [answer, hrun]

/-- What is stored behind a claim. -/
theorem memory_read_of_orderly (h : (course.memory k).Orderly) (hstep : course.step k = .read) :
    course.memory (k + 1) = (course.memory k).claim.2 := by
  rw [memory, hstep, Step.act_read h]

/-- What is stored behind a report. -/
theorem memory_complete_of_orderly (h : (course.memory k).Orderly) {report : Report}
    (hstep : course.step k = .complete report) :
    course.memory (k + 1) = (course.memory k).apply report := by
  rw [memory, hstep, Step.act_complete h]

/-- What is stored is in order, whatever is reported. -/
theorem orderly (k : Nat) : (course.memory k).Orderly := by
  induction k with
  | zero => exact .empty
  | succ k ih =>
    cases hstep : course.step k with
    | submit userId formula =>
      rw [course.memory_submit hstep]
      cases hgraph : Formula.compile formula with
      | error e => exact ih
      | ok graph => exact ih.create (course.time k) userId hgraph
    | read =>
      rw [course.memory_read_of_orderly ih hstep]
      exact ih.claim
    | complete report =>
      rw [course.memory_complete_of_orderly ih hstep]
      exact ih.apply report

/-- Rows lie in the order of their numbers. -/
theorem numbered (k : Nat) : (course.memory k).Numbered := (course.orderly k).numbered

/-- Asking for a task never fails. -/
theorem answer_eq (k : Nat) : course.answer k = .ok (course.memory k).claim.1 :=
  course.answer_eq_of_orderly (course.orderly k)

variable {course}

/-- The graph of a new expression is shaped. -/
theorem Creates.shaped {e : Expression} {graph : TaskGraph} (h : course.Creates k e graph) :
    graph.Shaped := Formula.shaped_of_compile h.compiled

/-- The tasks of a new expression stand behind all others. -/
theorem Creates.tasks_eq {e : Expression} {graph : TaskGraph} (h : course.Creates k e graph) :
    (course.memory (k + 1)).tasks = (course.memory k).tasks ++ course.newTasks k e graph := by
  rw [course.memory_submit h.step_eq, h.compiled, newTasks, h.id_eq]
  rfl

/-- A task that is handed out is the one that a claim takes. -/
theorem HandsOut.claim_eq {t : Task} (h : course.HandsOut k t) :
    (course.memory k).claim.1 = some t :=
  Except.ok.inj ((course.answer_eq k).symm.trans h.2)

/-- A task that is handed out is claimed. -/
theorem HandsOut.claims {t : Task} (h : course.HandsOut k t) :
    (course.memory k).Claims t (course.memory (k + 1)) := by
  have hclaimed := h.claim_eq
  rw [course.memory_read_of_orderly (course.orderly k) h.1]
  obtain hnone | ⟨u, hu, hclaims⟩ := Memory.claim_cases (course.numbered k)
  · rw [hnone] at hclaimed
    cases hclaimed
  · obtain rfl := Option.some.inj (hu.symm.trans hclaimed)
    exact hclaims

/-- A report that some task awaits changes what is stored. -/
theorem applies_of_awaiting? {report : Report} {t : Task} (hstep : course.step k = .complete report)
    (hawaiting : (course.memory k).awaiting? report = some t) : course.Applies k report := by
  refine ⟨hstep, ?_⟩
  rw [course.memory_complete_of_orderly (course.orderly k) hstep]
  exact Memory.apply_ne (course.numbered k) hawaiting

/-- What a call can do. -/
inductive Effect (course : Course) (k : Nat) : Prop
  /-- Nothing changes. -/
  | idle (hmemory : course.memory (k + 1) = course.memory k)
  /-- An expression is stored. -/
  | created (e : Expression) (graph : TaskGraph) (hcreates : course.Creates k e graph)
      (hmemory : course.memory (k + 1) =
        ((course.memory k).create (course.time k) e.userId e.formula graph).2)
  /-- A task is claimed. -/
  | claimed (t : Task) (hout : course.HandsOut k t)
  /-- An expression fails. -/
  | failed (report : Report) (t : Task) (error : String)
      (happlies : course.Applies k report)
      (hawaiting : (course.memory k).awaiting? report = some t)
      (hreason : report.failureReason? = some error)
      (hmemory : course.memory (k + 1) = (course.memory k).fail t.expressionId error)
  /-- A task is completed, and its expression is not. -/
  | completed (report : Report) (t : Task) (happlies : course.Applies k report)
      (hawaiting : (course.memory k).awaiting? report = some t)
      (hreason : report.failureReason? = none)
      (hopen : ∃ u ∈ (course.memory k).tasks, u.expressionId = t.expressionId ∧ u.id ≠ t.id ∧
        u.status ≠ .completed)
      (hmemory : course.memory (k + 1) = (course.memory k).put
        { t with status := .completed, result := some report.result })
  /-- An expression is completed with the last of its tasks. -/
  | finished (report : Report) (t : Task) (happlies : course.Applies k report)
      (hawaiting : (course.memory k).awaiting? report = some t)
      (hreason : report.failureReason? = none)
      (hall : ∀ u ∈ (course.memory k).tasks, u.expressionId = t.expressionId → u.id ≠ t.id →
        u.status = .completed)
      (hmemory : course.memory (k + 1) = (course.memory k).finish t.expressionId report.result)

/-- Every call does one of these. -/
theorem effect (course : Course) (k : Nat) : course.Effect k := by
  have horderly := course.orderly k
  cases hstep : course.step k with
  | submit userId formula =>
    have hmemory := course.memory_submit hstep
    cases hgraph : Formula.compile formula with
    | error e =>
      rw [hgraph] at hmemory
      exact .idle hmemory
    | ok graph =>
      rw [hgraph] at hmemory
      exact .created ((course.memory k).create (course.time k) userId formula graph).1 graph
        ⟨hstep, hgraph, rfl⟩ hmemory
  | read =>
    have hmemory := course.memory_read_of_orderly horderly hstep
    have hanswer := course.answer_eq k
    obtain hnone | ⟨t, ht, -⟩ := Memory.claim_cases horderly.numbered
    · rw [hnone] at hmemory
      exact .idle hmemory
    · rw [ht] at hanswer
      exact .claimed t ⟨hstep, hanswer⟩
  | complete report =>
    have hmemory := course.memory_complete_of_orderly horderly hstep
    have happlies := Memory.apply_cases horderly.numbered report
    generalize (course.memory k).apply report = n at happlies hmemory
    cases happlies with
    | dropped hawaiting => exact .idle hmemory
    | failed t error hawaiting hreason =>
      exact .failed report t error (applies_of_awaiting? hstep hawaiting) hawaiting hreason hmemory
    | completed t hawaiting hreason hopen =>
      exact .completed report t (applies_of_awaiting? hstep hawaiting) hawaiting hreason hopen
        hmemory
    | finished t hawaiting hreason hall =>
      exact .finished report t (applies_of_awaiting? hstep hawaiting) hawaiting hreason hall hmemory

/-- Two formulas. A report comes before any task is known, and one on a task that nobody has asked
for; then the tasks are asked for and reported on one by one, and one report comes again. -/
def sample : Course where
  time _ := ⟨0, 0⟩
  step k := [.complete (.success 9 9 ⟨0⟩), .submit 7 "-(-(2))", .submit 8 "1/0",
    .complete (.success 1 1 ⟨0⟩), .read, .complete (.success 1 1 ⟨0xc000000000000000⟩),
    .read, .complete (.success 2 1 ⟨0x4000000000000000⟩), .read,
    .complete (.failure 3 2 "division by zero"), .read,
    .complete (.success 1 1 ⟨0⟩)].getD k .read

end Course

end Reckoner
