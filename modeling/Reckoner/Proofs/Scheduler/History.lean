import Reckoner.Proofs.Scheduler.Creation
import Reckoner.Service
import Reckoner.Worker.Basic

/-!
# Whole histories

Users submit formulas, and workers ask for tasks and report on them. A report is about a task that
has been handed out at some time: it may come late, before earlier ones, twice or never. Whatever
the order, a finished expression says what the evaluation of its graph in order says.
-/

namespace Reckoner

/-! ## What can come about -/

/-- The store in memory, and the tasks that have been handed out. -/
structure History where
  /-- What is stored. -/
  memory : Memory
  /-- The tasks as they were handed out, the last one first. -/
  claimed : List Task

namespace History

/-- Nothing has happened yet. -/
def start : History := ⟨.empty, []⟩

/-- A user submits a formula. -/
def submit (s : History) (now : Instant) (userId : UserId) (formula : String) : History :=
  { s with memory := (Service.submit Memory.store now userId formula s.memory).state }

/-- A worker asks for a task. -/
def read (s : History) (now : Instant) : History :=
  let reply := Scheduler.readTask.run (Memory.store.handle now) (.of s.memory)
  match reply.answer with
  | .ok (some task) => ⟨reply.state.committed, task :: s.claimed⟩
  | _ => { s with memory := reply.state.committed }

/-- A worker submits a report. -/
def complete (s : History) (now : Instant) (report : Report) : History :=
  let reply := (Scheduler.completeTask report).run (Memory.store.handle now) (.of s.memory)
  { s with memory := reply.state.committed }

/-- What can come about with honest workers: they report on any of the tasks handed out so far. -/
inductive Reachable (arith : Arithmetic) : History → Prop
  | start : Reachable arith start
  | submit {s : History} (now : Instant) (userId : UserId) (formula : String) :
      Reachable arith s → Reachable arith (s.submit now userId formula)
  | read {s : History} (now : Instant) : Reachable arith s → Reachable arith (s.read now)
  | complete {s : History} {t : Task} (now : Instant) : Reachable arith s → t ∈ s.claimed →
      Reachable arith (s.complete now (Report.ofAssignment arith (Assignment.ofTask t)))

end History

/-- What a worker submits is the honest report, whatever the floors. -/
theorem Floors.execute_fst (floors : Floors) (arith : Arithmetic) (a : Assignment) :
    (floors.execute arith a).1 = Report.ofAssignment arith a := by
  unfold execute Report.ofAssignment
  cases calculate arith a.operation a.args <;> rfl

/-! ## What honest reports promise -/

/-- Results are those of the evaluation, and errors are those of a node that fails in it. -/
def Promise.honest (arith : Arithmetic) : Promise where
  result graph i value := (graph.outcomes arith)[i]? = some (.ok value)
  failure graph error := ∃ i node, graph.Fails arith i node error

variable {arith : Arithmetic} {m : Memory} {t : Task}

namespace Task.Placed

variable {e : Expression} {graph : TaskGraph} {base : TaskId} {i : Nat} {node : Node}

/-- The dependencies of a claimed task have finite outcomes, and these are its operands. -/
theorem exists_outcome (h : t.Placed (.honest arith) m e graph base i node) (hm : m.Numbered)
    (hclaimed : t.status ≠ .pending) {slot : Slot} {j : Nat}
    (hj : node.dependencies.get slot = some j) :
    ∃ value, t.args.get slot = some value ∧ (graph.outcomes arith)[j]? = some (.ok value) ∧
      value.isFinite = true := by
  have hshaped := h.shaped.node i node h.node_eq
  have hlt : j < graph.size := Nat.lt_trans (hshaped.backward slot j hj) h.lt_size
  obtain ⟨value, hvalue, hresult⟩ := h.realizes.exists_result hshaped hclaimed hj
  obtain ⟨hfinite, houtcome⟩ := h.accepted hm hlt hresult
  exact ⟨value, hvalue, houtcome, hfinite⟩

/-- An operand of a claimed task is the one of the evaluation. -/
theorem operand_eq (h : t.Placed (.honest arith) m e graph base i node) (hm : m.Numbered)
    (hclaimed : t.status ≠ .pending) {slot : Slot} (hslot : slot ∈ node.operation.slots) :
    t.args.get slot = node.input (graph.outcomes arith) slot := by
  unfold Node.input
  cases hj : node.dependencies.get slot with
  | none =>
    rw [← h.realizes.operation_eq] at hslot
    obtain ⟨value, hvalue⟩ := Option.isSome_iff_exists.mp (h.realizes.ready hclaimed slot hslot)
    obtain hliteral | ⟨j, hdependency, -⟩ := h.realizes.operand slot value hvalue
    · rw [hvalue, hliteral]
    · rw [hj] at hdependency
      cases hdependency
  | some j =>
    obtain ⟨value, hvalue, houtcome, -⟩ := h.exists_outcome hm hclaimed hj
    simp only [hvalue, houtcome]
    rfl

/-- What a claimed task computes is the outcome of its node. -/
theorem outcome_eq (h : t.Placed (.honest arith) m e graph base i node) (hm : m.Numbered)
    (hclaimed : t.status ≠ .pending) :
    (graph.outcomes arith)[i]? = some (calculate arith t.operation.symbol t.args) := by
  rw [h.shaped.getElem?_outcomes arith h.node_eq, h.realizes.operation_eq]
  refine congrArg some (calculate_congr arith node.operation fun slot hslot => ?_)
  rw [Node.get_inputs, h.operand_eq hm hclaimed hslot]

end Task.Placed

/-- The report on an assignment of a claimed task keeps the promise. -/
theorem Memory.Consistent.keeps (h : m.Consistent (.honest arith)) (hclaimed : t.status ≠ .pending)
    {a : Assignment} (hargs : a.args = t.args) (hoperation : a.operation = t.operation.symbol) :
    Memory.Keeps (.honest arith) m t (Report.ofAssignment arith a) := by
  refine ⟨fun hreason e graph base i node hplaced => ?_,
    fun error hreason e graph base i node hplaced => ⟨i, node, hplaced.node_eq, ?_, ?_⟩⟩
  · have houtcome := hplaced.outcome_eq h.numbered hclaimed
    rw [← hoperation, ← hargs, Report.calculate_of_failureReason? hreason] at houtcome
    exact houtcome
  · intro slot j hj
    obtain ⟨value, -, houtcome, hfinite⟩ := hplaced.exists_outcome h.numbered hclaimed hj
    exact ⟨value, houtcome, hfinite⟩
  · rw [hplaced.outcome_eq h.numbered hclaimed, ← hoperation, ← hargs, ← hreason]
    exact (Report.failureReason?_ofAssignment arith a).symm

/-! ## Tasks that have been handed out -/

/-- The tasks that have been handed out are gone, or still have what they were handed out with. -/
structure Recorded (claimed : List Task) (m : Memory) : Prop where
  /-- Their numbers have been given out. -/
  task_le : ∀ t ∈ claimed, t.id ≤ m.lastTask
  /-- What is stored with the number of one of them has its operation and its operands. -/
  same : ∀ t ∈ claimed, ∀ s ∈ m.tasks, s.id = t.id →
    s.status ≠ .pending ∧ s.operation = t.operation ∧ s.args = t.args

namespace Recorded

variable {claimed : List Task} {n : Memory}

/-- Tasks may go. -/
theorem of_subset (h : Recorded claimed m) (htasks : n.tasks ⊆ m.tasks)
    (hlast : n.lastTask = m.lastTask) : Recorded claimed n :=
  ⟨fun t ht => hlast ▸ h.task_le t ht, fun t ht s hs => h.same t ht s (htasks hs)⟩

/-- A pending task may be replaced, and a claimed one by one with the same operands. -/
theorem put (h : Recorded claimed m) {s : Task} (hs : s ∈ m.tasks) (hid : t.id = s.id)
    (hkeeps : s.status ≠ .pending →
      t.status ≠ .pending ∧ t.operation = s.operation ∧ t.args = s.args) :
    Recorded claimed (m.put t) := by
  refine ⟨h.task_le, fun c hc u hu huid => ?_⟩
  rcases Memory.mem_put.mp hu with ⟨rfl, -⟩ | ⟨hu, -⟩
  · obtain ⟨hstatus, hoperation, hargs⟩ := h.same c hc s hs (hid.symm.trans huid)
    obtain ⟨hstatus', hoperation', hargs'⟩ := hkeeps hstatus
    exact ⟨hstatus', hoperation'.trans hoperation, hargs'.trans hargs⟩
  · exact h.same c hc u hu huid

/-- New tasks have new numbers. -/
theorem create (h : Recorded claimed m) (now : Instant) (userId : UserId) (formula : String)
    (graph : TaskGraph) : Recorded claimed (m.create now userId formula graph).2 := by
  refine ⟨fun t ht => ?_, fun t ht s hs hid => ?_⟩
  · exact Int.le_trans (h.task_le t ht) (Int.le_add_of_nonneg_right (Int.natCast_nonneg _))
  · rcases List.mem_append.mp hs with hs | hs
    · exact h.same t ht s hs hid
    · have hnew := (Task.bounds_ofNodes hs).1
      rw [hid] at hnew
      exact absurd (h.task_le t ht) (Int.not_le_of_gt hnew)

/-- A task that is handed out joins the others. -/
theorem cons (h : Recorded claimed m) (hm : m.Numbered) (ht : t ∈ m.tasks)
    (hstatus : t.status ≠ .pending) : Recorded (t :: claimed) m := by
  refine ⟨fun c hc => ?_, fun c hc s hs hid => ?_⟩
  · rcases List.mem_cons.mp hc with rfl | hc
    · exact hm.task_le c ht
    · exact h.task_le c hc
  · rcases List.mem_cons.mp hc with rfl | hc
    · obtain rfl := hm.eq_of_id_eq hs ht hid
      exact ⟨hstatus, rfl, rfl⟩
    · exact h.same c hc s hs hid

/-- A claim hands out a task, if any, that is stored then. -/
theorem claim (h : Recorded claimed m) (hm : m.Numbered) :
    Recorded (m.claim.1.toList ++ claimed) m.claim.2 := by
  have hclaim := @Memory.claim_induction m (fun m => m.Numbered ∧ Recorded claimed m)
    (fun t after => Recorded (t :: claimed) after) ?_ ?_ hm ⟨hm, h⟩
  · obtain hnone | ⟨t, ht, hrecorded⟩ := hclaim
    · rw [hnone]
      exact h
    · rw [ht]
      exact hrecorded
  · rintro m t ⟨hm, h⟩ ht hpending
    exact ⟨hm.put _, h.put ht (m.fills_fill t _).id_eq fun hne => absurd hpending hne⟩
  · rintro m t c ⟨hm, h⟩ ht hpending - rfl
    have hid := (m.fills_fill t t.operation.slots).id_eq
    have hput := h.put (t := { (m.fill t t.operation.slots).1 with status := .processing }) ht hid
      fun hne => absurd hpending hne
    exact (hput.cons (hm.put _) (Memory.mem_put_self ht hid.symm) (by simp)).of_subset
      (List.Subset.refl _) rfl

/-- A report drops tasks or completes one. -/
theorem apply (h : Recorded claimed m) (hm : m.Numbered) (report : Report) :
    Recorded claimed (m.apply report) := by
  have hdrop : ∀ {n : Memory} (id : ExpressionId) (f : Expression → Expression),
      Recorded claimed n → Recorded claimed ((n.revise id f).drop id) := fun id f hn =>
    hn.of_subset (fun _ hs => (Memory.mem_drop.mp hs).1) rfl
  unfold Memory.apply
  cases hawaiting : m.awaiting? report with
  | none => exact h
  | some t =>
    obtain ⟨ht, -, -⟩ := hm.of_awaiting? hawaiting
    cases report.failureReason? with
    | some error => exact hdrop _ _ h
    | none =>
      have hdone := h.put (t := { t with status := .completed, result := some report.result }) ht
        rfl fun _ => ⟨by simp, rfl, rfl⟩
      simp only [Memory.complete]
      split_ifs
      · exact hdrop _ _ hdone
      · exact hdone

end Recorded

/-! ## The invariant of a history -/

namespace History

/-- The invariant: the store is consistent, and the tasks handed out are as they were. -/
structure Sound (arith : Arithmetic) (s : History) : Prop where
  consistent : s.memory.Consistent (.honest arith)
  recorded : Recorded s.claimed s.memory

variable {s : History}

/-- Submitting keeps the invariant. -/
theorem Sound.submit (h : s.Sound arith) (now : Instant) (userId : UserId) (formula : String) :
    (s.submit now userId formula).Sound arith := by
  unfold History.submit Service.submit
  cases hgraph : Formula.compile formula with
  | error e => exact h
  | ok graph =>
    exact ⟨h.consistent.create now userId hgraph,
      h.recorded.create now userId formula _⟩

/-- Asking for a task claims one, if one is ready. -/
theorem Sound.read_eq (h : s.Sound arith) (now : Instant) :
    s.read now = ⟨s.memory.claim.2, s.memory.claim.1.toList ++ s.claimed⟩ := by
  obtain ⟨events, hrun⟩ := Scheduler.readTask_run now h.consistent.joined
  unfold History.read
  simp only [hrun]
  cases s.memory.claim.1 <;> rfl

/-- Asking for a task keeps the invariant. -/
theorem Sound.read (h : s.Sound arith) (now : Instant) : (s.read now).Sound arith := by
  rw [h.read_eq now]
  exact ⟨h.consistent.claim, h.recorded.claim h.consistent.numbered⟩

/-- A submitted report is applied. -/
theorem Sound.complete_eq (h : s.Sound arith) (now : Instant) (report : Report) :
    s.complete now report = { s with memory := s.memory.apply report } := by
  obtain ⟨events, hrun⟩ := Scheduler.completeTask_run now h.consistent.joined report
  unfold History.complete
  simp only [hrun]
  rfl

/-- An honest report on a task that has been handed out keeps the invariant. -/
theorem Sound.complete (h : s.Sound arith) (now : Instant) {t : Task} (ht : t ∈ s.claimed) :
    (s.complete now (Report.ofAssignment arith (Assignment.ofTask t))).Sound arith := by
  rw [h.complete_eq now]
  refine ⟨h.consistent.apply _ fun u hu hid _ => ?_,
    h.recorded.apply h.consistent.numbered _⟩
  rw [Report.id_ofAssignment] at hid
  obtain ⟨hclaimed, hoperation, hargs⟩ := h.recorded.same t ht u hu hid
  exact h.consistent.keeps hclaimed hargs.symm (congrArg Operation.symbol hoperation.symm)

/-- The invariant holds in every history. -/
theorem Reachable.sound (h : s.Reachable arith) : s.Sound arith := by
  induction h with
  | start =>
    exact ⟨.empty _, ⟨fun _ ht => absurd ht List.not_mem_nil,
      fun _ ht => absurd ht List.not_mem_nil⟩⟩
  | submit now userId formula _ ih => exact ih.submit now userId formula
  | read now _ ih => exact ih.read now
  | complete now _ ht ih => exact ih.complete now ht

/-! ## Finished expressions -/

/-- What the evaluation of its graph says of an expression that is finished. -/
inductive Finished (arith : Arithmetic) (graph : TaskGraph) (e : Expression) : Prop
  /-- No node fails; the expression has the value of the root. -/
  | completed (value : Binary64) (hstatus : e.status = .completed) (hresult : e.result = some value)
    (hvalue : graph.Evaluates arith value)
  /-- A node fails; the expression has its error and no value. -/
  | failed (i : Nat) (node : Node) (hstatus : e.status = .error) (hresult : e.result = none)
    (hfails : graph.Fails arith i node e.error)

/-- Two finished expressions with one graph agree. -/
theorem Finished.agree {graph : TaskGraph} {e f : Expression} (he : Finished arith graph e)
    (hf : Finished arith graph f) : f.status = e.status ∧ f.result = e.result := by
  cases he with
  | completed value hstatus hresult hvalue =>
    cases hf with
    | completed other hstatus' hresult' hvalue' =>
      rw [hstatus, hstatus', hresult, hresult', hvalue.unique hvalue']
      exact ⟨rfl, rfl⟩
    | failed _ _ _ _ hfails => exact absurd hfails hvalue.not_fails
  | failed _ _ hstatus hresult hfails =>
    cases hf with
    | completed _ _ _ hvalue => exact absurd hfails hvalue.not_fails
    | failed _ _ hstatus' hresult' _ =>
      exact ⟨hstatus'.trans hstatus.symm, hresult'.trans hresult.symm⟩

/-- When every node has had an honest result, the graph has the value of the root. -/
theorem evaluates_of_all {graph : TaskGraph} {value : Binary64}
    (hroot : (graph.outcomes arith)[graph.root]? = some (.ok value))
    (hall : ∀ i < graph.size, ∃ v, v.isFinite = true ∧
      (graph.outcomes arith)[i]? = some (.ok v)) : graph.Evaluates arith value := by
  refine ⟨hroot, fun outcome houtcome => ?_⟩
  obtain ⟨i, hi⟩ := List.mem_iff_getElem?.mp houtcome
  have hlt : i < graph.size := by
    rw [← graph.length_outcomes arith]
    exact (List.getElem?_eq_some_iff.mp hi).1
  obtain ⟨v, hfinite, hv⟩ := hall i hlt
  exact ⟨v, Option.some.inj (hi.symm.trans hv), hfinite⟩

/-- Every expression has a graph; a finished one has what the evaluation says. -/
theorem Reachable.exists_finished (h : s.Reachable arith) {e : Expression}
    (he : e ∈ s.memory.expressions) : ∃ graph, Formula.compile e.formula = .ok graph ∧
      (e.status.isTerminal = true → Finished arith graph e) := by
  obtain ⟨graph, hgraph, hprogress⟩ := h.sound.consistent.progress e he
  refine ⟨graph, hgraph, fun hterminal => ?_⟩
  cases hprogress with
  | unfinished _ hstatus =>
    rw [hstatus] at hterminal
    cases hterminal
  | completed value hstatus hresult _ _ hroot hall =>
    exact .completed value hstatus hresult (evaluates_of_all hroot hall)
  | failed hstatus hresult _ hfailure =>
    obtain ⟨i, node, hfails⟩ := hfailure
    exact .failed i node hstatus hresult hfails

/-- **Whatever the order of submissions, claims and reports, late, repeated and lost ones included,
an expression ends as the evaluation of its graph in order says.** A completed one has the value of
the root, and no node fails; a failed one has the error of a node whose dependencies have finite
values. So two histories in which a formula is finished agree on it, whatever the arithmetic. -/
theorem Reachable.evaluates (h : s.Reachable arith) {e : Expression}
    (he : e ∈ s.memory.expressions) : ∃ graph, Formula.compile e.formula = .ok graph ∧
      (e.status = .completed → ∃ value, e.result = some value ∧ graph.Evaluates arith value) ∧
      (e.status = .error → ∃ i node, graph.Fails arith i node e.error) ∧
      ∀ s' : History, s'.Reachable arith → ∀ f ∈ s'.memory.expressions, f.formula = e.formula →
        e.status.isTerminal = true → f.status.isTerminal = true →
          f.status = e.status ∧ f.result = e.result := by
  obtain ⟨graph, hgraph, hfinished⟩ := h.exists_finished he
  refine ⟨graph, hgraph, fun hcompleted => ?_, fun hfailed => ?_,
    fun s' h' f hf hformula heterminal hfterminal => ?_⟩
  · cases hfinished (by rw [hcompleted]; rfl) with
    | completed value _ hresult hvalue => exact ⟨value, hresult, hvalue⟩
    | failed _ _ hstatus => exact absurd (hcompleted.symm.trans hstatus) (by decide)
  · cases hfinished (by rw [hfailed]; rfl) with
    | completed _ hstatus => exact absurd (hfailed.symm.trans hstatus) (by decide)
    | failed i node _ _ hfails => exact ⟨i, node, hfails⟩
  · obtain ⟨graph', hgraph', hfinished'⟩ := h'.exists_finished hf
    rw [hformula, hgraph] at hgraph'
    obtain rfl := Except.ok.inj hgraph'
    exact (hfinished heterminal).agree (hfinished' hfterminal)

/-- Two formulas in turns. The report on the inner minus of the first one comes behind the failure
of the second one, and comes twice; then the outer minus is claimed. -/
def sample : History :=
  let now : Instant := ⟨0, 0⟩
  let inner : Task :=
    ⟨1, 1, .negate, ⟨some ⟨0x4000000000000000⟩, none⟩, ⟨none, none⟩, .processing, none⟩
  let outer : Task :=
    ⟨2, 1, .negate, ⟨some ⟨0xc000000000000000⟩, none⟩, ⟨some 1, none⟩, .processing, none⟩
  let quotient : Task :=
    ⟨3, 2, .divide, ⟨some ⟨0x3ff0000000000000⟩, some ⟨0⟩⟩, ⟨none, none⟩, .processing, none⟩
  let report (task : Task) : Report := Report.ofAssignment .ieee (Assignment.ofTask task)
  let claimed := (((start.submit now 7 "-(-(2))").submit now 8 "1/0").read now).read now
  let failed := claimed.complete now (report quotient)
  let halfway := ((failed.complete now (report inner)).complete now (report inner)).read now
  halfway.complete now (report outer)

/-- In the sample the first formula has its value, and the second one the error of its quotient. -/
theorem evaluates_sample :
    sample.Reachable .ieee ∧
    sample.memory.expressions =
      [⟨1, 7, "-(-(2))", .completed, some ⟨0x4000000000000000⟩, "", ⟨0, 0⟩, ⟨0, 0⟩⟩,
        ⟨2, 8, "1/0", .error, none, "division by zero", ⟨0, 0⟩, ⟨0, 0⟩⟩] ∧
    (∃ graph, Formula.compile "-(-(2))" = .ok graph ∧ graph.Evaluates .ieee ⟨0x4000000000000000⟩) ∧
    ∃ graph i node, Formula.compile "1/0" = .ok graph ∧
      graph.Fails .ieee i node "division by zero" := by
  have hreachable : sample.Reachable .ieee := by
    refine .complete _ (.read _ (.complete _ (.complete _ (.complete _ (.read _ (.read _
      (.submit _ _ _ (.submit _ _ _ .start)))) ?_) ?_) ?_)) ?_
    all_goals decide +kernel
  have hexpressions : sample.memory.expressions =
      [⟨1, 7, "-(-(2))", .completed, some ⟨0x4000000000000000⟩, "", ⟨0, 0⟩, ⟨0, 0⟩⟩,
        ⟨2, 8, "1/0", .error, none, "division by zero", ⟨0, 0⟩, ⟨0, 0⟩⟩] := by decide +kernel
  refine ⟨hreachable, hexpressions, ?_, ?_⟩
  · obtain ⟨graph, hgraph, hcompleted, -⟩ := hreachable.evaluates
      (hexpressions ▸ List.mem_cons_self ..)
    obtain ⟨value, hvalue, hevaluates⟩ := hcompleted rfl
    exact ⟨graph, hgraph, Option.some.inj hvalue ▸ hevaluates⟩
  · obtain ⟨graph, hgraph, -, hfailed, -⟩ := hreachable.evaluates
      (hexpressions ▸ List.mem_cons_of_mem _ (List.mem_cons_self ..))
    obtain ⟨i, node, hfails⟩ := hfailed rfl
    exact ⟨graph, i, node, hgraph, hfails⟩

end History

end Reckoner
