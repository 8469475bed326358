import Reckoner.Proofs.Evaluation
import Reckoner.Proofs.Scheduler.Consistency

/-!
# What a call keeps of the invariant

Every call writes tasks one by one, and may end an expression. One lemma says what a write of a task
must be like to keep the invariant, one does so for the end of an expression, and one for a new
expression; a claim and a report follow.
-/

namespace Reckoner.Memory

variable {promise : Promise} {m n : Memory}

/-! ## Work on one task -/

/-- Work on a task that keeps the invariant. -/
structure Works (promise : Promise) (m : Memory) (before after : Task) : Prop
    extends before.Grows after where
  /-- A new operand is the result of a dependency. -/
  source : ∀ slot value, after.args.get slot = some value → before.args.get slot = some value ∨
    ∃ id, before.dependencies.get slot = some id ∧ m.result? id = some value
  /-- A claimed task has all its operands. -/
  ready : after.status ≠ .pending →
    ∀ slot ∈ after.operation.slots, (after.args.get slot).isSome = true
  /-- A completed task stays as it is. -/
  completed : before.status = .completed → after.status = .completed ∧ after.result = before.result
  /-- Exactly the completed tasks have results. -/
  settled : after.status = .completed ↔ after.result.isSome = true
  /-- A new result is accepted. -/
  accepted : ∀ value, after.result = some value → before.result = some value ∨
    value.isFinite = true ∧ ∀ e graph base i node,
      before.Placed promise m e graph base i node → promise.result graph i value

/-- Work on a task keeps results. -/
theorem Works.result?_put {s t : Task} (hworks : Works promise m s t) (h : m.Numbered)
    (hs : s ∈ m.tasks) {id : TaskId} {value : Binary64} (hvalue : m.result? id = some value) :
    (m.put t).result? id = some value := by
  obtain ⟨u, hu, hid, hstatus, hresult⟩ := h.result?_eq_some_iff.mp hvalue
  refine (h.put t).result?_eq_some_iff.mpr ?_
  by_cases hsame : u.id = t.id
  · obtain rfl := h.eq_of_id_eq hu hs (hsame.trans hworks.id_eq)
    obtain ⟨hafter, hkept⟩ := hworks.completed hstatus
    exact ⟨t, mem_put_self hu hsame, hsame ▸ hid, hafter, hkept.trans hresult⟩
  · exact ⟨u, mem_put_of_ne hu hsame, hid, hstatus, hresult⟩

/-- A task that was worked on stands for the same node. -/
theorem Works.realizes {s t : Task} (hworks : Works promise m s t) (h : m.Numbered)
    (hs : s ∈ m.tasks) {e : Expression} {graph : TaskGraph} {base : TaskId} {i : Nat} {node : Node}
    (hplaced : s.Placed promise m e graph base i node) :
    t.Realizes promise (m.put t) graph base i node := by
  have hrealizes := hplaced.realizes
  refine ⟨hworks.id_eq.trans hrealizes.id_eq, hworks.operation_eq.trans hrealizes.operation_eq,
    fun slot => ?_, fun slot value hvalue => ?_, fun slot value hvalue => ?_, hworks.ready,
    hworks.settled, fun value hvalue => ?_⟩
  · rw [hworks.dependencies_eq, hrealizes.dependencies_eq]
  · exact hworks.args slot value (hrealizes.literal slot value hvalue)
  · obtain hbefore | ⟨id, hid, hresult⟩ := hworks.source slot value hvalue
    · obtain hliteral | ⟨j, hj, hresult⟩ := hrealizes.operand slot value hbefore
      · exact Or.inl hliteral
      · exact Or.inr ⟨j, hj, hworks.result?_put h hs hresult⟩
    · rw [hrealizes.dependencies_eq] at hid
      obtain ⟨j, hj, rfl⟩ := Option.map_eq_some_iff.mp hid
      exact Or.inr ⟨j, hj, hworks.result?_put h hs hresult⟩
  · obtain hbefore | ⟨hfinite, haccepted⟩ := hworks.accepted value hvalue
    · exact hrealizes.result value hbefore
    · exact ⟨hfinite, haccepted e graph base i node hplaced⟩

/-- Work on a task keeps the invariant. -/
theorem Consistent.put (h : m.Consistent promise) {s t : Task} (hs : s ∈ m.tasks)
    (hworks : Works promise m s t) : (m.put t).Consistent promise := by
  refine ⟨h.numbered.put t, fun e he => ?_, fun u hu => ?_⟩
  · obtain ⟨graph, hgraph, hprogress⟩ := h.progress e he
    refine ⟨graph, hgraph, ?_⟩
    cases hprogress with
    | unfinished base hstatus hresult herror htasks =>
      -- One task changes; the others stand for their nodes as before, since no result is lost.
      refine .unfinished base hstatus hresult herror ⟨fun i node hi => ?_, fun u hu hid => ?_⟩
      · obtain ⟨u, hu, hid, hrealizes⟩ := htasks.stored i node hi
        by_cases hsame : u.id = t.id
        · obtain rfl := h.numbered.eq_of_id_eq hu hs (hsame.trans hworks.id_eq)
          refine ⟨t, mem_put_self hu hsame, hworks.expressionId_eq.trans hid, ?_⟩
          exact hworks.realizes h.numbered hu ⟨he, hid.symm, hgraph, hstatus, hresult, herror,
            htasks, hi, hrealizes⟩
        · exact ⟨u, mem_put_of_ne hu hsame, hid, hrealizes.mono
            (fun _ _ _ hvalue => hworks.result?_put h.numbered hs hvalue)
            (Formula.shaped_of_compile hgraph) hi⟩
      · rcases mem_put.mp hu with ⟨rfl, -⟩ | ⟨hu, -⟩
        · rw [hworks.id_eq]
          exact htasks.numbered s hs (hworks.expressionId_eq.symm.trans hid)
        · exact htasks.numbered u hu hid
    | completed value hstatus hresult herror hfinite hroot hall =>
      exact .completed value hstatus hresult herror hfinite hroot hall
    | failed hstatus hresult herror hfailure => exact .failed hstatus hresult herror hfailure
  · rcases mem_put.mp hu with ⟨rfl, -⟩ | ⟨hu, -⟩
    · rw [hworks.expressionId_eq]
      exact h.owned s hs
    · exact h.owned u hu

/-! ## Expressions that are not touched -/

/-- An expression whose tasks stay evaluates the same graph. -/
theorem evaluating_of_same {id : ExpressionId} {graph : TaskGraph} {base : TaskId}
    (hm : m.Numbered) (hn : n.Numbered) (hshaped : graph.Shaped)
    (hsame : ∀ t : Task, t.expressionId = id → (t ∈ m.tasks ↔ t ∈ n.tasks))
    (htasks : Evaluating promise m id graph base) : Evaluating promise n id graph base := by
  refine ⟨fun i node hi => ?_, fun t ht hid => htasks.numbered t ((hsame t hid).mpr ht) hid⟩
  obtain ⟨t, ht, hid, hrealizes⟩ := htasks.stored i node hi
  refine ⟨t, (hsame t hid).mp ht, hid, hrealizes.mono (fun j value hj hvalue => ?_) hshaped hi⟩
  obtain ⟨u, hu, hnumber, hstatus, hresult⟩ := hm.result?_eq_some_iff.mp hvalue
  obtain ⟨d, hd, hdid, hdrealizes⟩ := htasks.stored j _ (List.getElem?_eq_getElem hj)
  obtain rfl := hm.eq_of_id_eq hu hd (hnumber.trans hdrealizes.id_eq.symm)
  exact hn.result?_eq_some_iff.mpr ⟨u, (hsame u hdid).mp hu, hnumber, hstatus, hresult⟩

/-- An expression whose tasks stay is as far as before. -/
theorem progress_of_same {e : Expression} {graph : TaskGraph} (hm : m.Numbered) (hn : n.Numbered)
    (hgraph : Formula.compile e.formula = .ok graph)
    (hsame : ∀ t : Task, t.expressionId = e.id → (t ∈ m.tasks ↔ t ∈ n.tasks))
    (hprogress : e.Progress promise m graph) : e.Progress promise n graph := by
  cases hprogress with
  | unfinished base hstatus hresult herror htasks =>
    exact .unfinished base hstatus hresult herror
      (evaluating_of_same hm hn (Formula.shaped_of_compile hgraph) hsame htasks)
  | completed value hstatus hresult herror hfinite hroot hall =>
    exact .completed value hstatus hresult herror hfinite hroot hall
  | failed hstatus hresult herror hfailure => exact .failed hstatus hresult herror hfailure

/-- Marking an expression keeps the invariant. -/
theorem Consistent.mark (h : m.Consistent promise) (id : ExpressionId) :
    (m.mark id).Consistent promise := by
  have hkeeps : ∀ e : Expression, (if e.status = .pending then
      { e with status := .processing } else e : Expression).id = e.id := by
    intro e
    split_ifs <;> rfl
  have hnumbered : (m.mark id).Numbered := h.numbered.revise id hkeeps
  refine ⟨hnumbered, fun e he => ?_, fun t ht => ?_⟩
  · obtain ⟨old, hold, rfl⟩ := mem_revise.mp he
    obtain ⟨graph, hgraph, hprogress⟩ := h.progress old hold
    have hsame := @progress_of_same promise m (m.mark id) old graph h.numbered hnumbered hgraph
      (fun _ _ => Iff.rfl) hprogress
    split_ifs with hid hpending
    · refine ⟨graph, hgraph, ?_⟩
      cases hsame with
      | unfinished base hstatus hresult herror htasks =>
        exact .unfinished base rfl hresult herror htasks
      | completed value hstatus => rw [hpending] at hstatus; cases hstatus
      | failed hstatus => rw [hpending] at hstatus; cases hstatus
    · exact ⟨graph, hgraph, hsame⟩
    · exact ⟨graph, hgraph, hsame⟩
  · obtain ⟨e, he, hid, hstatus⟩ := h.owned t ht
    refine ⟨_, mem_revise.mpr ⟨e, he, rfl⟩, ?_⟩
    split_ifs
    · exact ⟨hid, rfl⟩
    · exact ⟨hid, hstatus⟩
    · exact ⟨hid, hstatus⟩

/-- The end of an expression keeps the invariant. -/
theorem Consistent.close (h : m.Consistent promise) {e : Expression} (he : e ∈ m.expressions)
    {id : ExpressionId} (heid : e.id = id) {f : Expression → Expression}
    (hid : ∀ e, (f e).id = e.id) (hformula : (f e).formula = e.formula)
    (hprogress : ∀ graph, Formula.compile e.formula = .ok graph →
      (f e).Progress promise ((m.revise id f).drop id) graph) :
    ((m.revise id f).drop id).Consistent promise := by
  subst heid
  have hnumbered := (h.numbered.revise e.id hid).drop e.id
  refine ⟨hnumbered, fun x hx => ?_, fun t ht => ?_⟩
  · obtain ⟨old, hold, rfl⟩ := mem_revise.mp hx
    obtain ⟨graph, hgraph, hbefore⟩ := h.progress old hold
    split_ifs with hsame
    · obtain rfl := h.numbered.eq_of_expression_id_eq hold he hsame
      exact ⟨graph, hformula ▸ hgraph, hprogress graph hgraph⟩
    · refine ⟨graph, hgraph, progress_of_same h.numbered hnumbered hgraph (fun t ht => ?_) hbefore⟩
      rw [mem_drop, ht]
      exact (and_iff_left hsame).symm
  · obtain ⟨hmem, hne⟩ := mem_drop.mp ht
    obtain ⟨owner, howner, hownerId, hstatus⟩ := h.owned t hmem
    refine ⟨owner, mem_revise.mpr ⟨owner, howner, ?_⟩, hownerId, hstatus⟩
    rw [if_neg fun heq => hne (hownerId.symm.trans heq)]

/-! ## Claims -/

/-- A task that is not completed has no result. -/
theorem Consistent.result_eq_none (h : m.Consistent promise) {t : Task} (ht : t ∈ m.tasks)
    (hstatus : t.status ≠ .completed) : t.result = none := by
  obtain ⟨_, _, _, _, _, hplaced⟩ := h.exists_placed ht
  cases hresult : t.result with
  | none => rfl
  | some value => exact absurd (hplaced.realizes.settled.mpr (by rw [hresult]; rfl)) hstatus

/-- Filling slots of a pending task is work on it. -/
theorem works_fill (h : m.Consistent promise) {t : Task} (ht : t ∈ m.tasks)
    (hpending : t.status = .pending) (slots : List Slot) :
    Works promise m t (m.fill t slots).1 := by
  have hfills := m.fills_fill t slots
  have hresult := h.result_eq_none ht (by simp [hpending])
  refine ⟨hfills.toGrows, hfills.source, fun hne => ?_, fun hdone => ?_, ?_, fun value hvalue => ?_⟩
  · exact absurd (hfills.status_eq.trans hpending) hne
  · rw [hpending] at hdone
    cases hdone
  · simp [hfills.status_eq, hfills.result_eq, hpending, hresult]
  · exact Or.inl (hfills.result_eq ▸ hvalue)

/-- Claiming a pending task whose slots are all filled is work on it. -/
theorem works_claim (h : m.Consistent promise) {t : Task} (ht : t ∈ m.tasks)
    (hpending : t.status = .pending) (hready : (m.fill t t.operation.slots).2 = true) :
    Works promise m t { (m.fill t t.operation.slots).1 with status := .processing } := by
  have hfills := m.fills_fill t t.operation.slots
  have hresult := h.result_eq_none ht (by simp [hpending])
  refine ⟨⟨hfills.id_eq, hfills.expressionId_eq, hfills.operation_eq, hfills.dependencies_eq,
    hfills.args⟩, hfills.source, fun _ slot hslot => ?_, fun hdone => ?_, ?_,
    fun value hvalue => ?_⟩
  · exact isSome_of_fill hready slot (hfills.operation_eq ▸ hslot)
  · rw [hpending] at hdone
    cases hdone
  · simp [hfills.result_eq, hresult]
  · exact Or.inl (hfills.result_eq ▸ hvalue)

/-- A claim keeps the invariant. -/
theorem Consistent.claim (h : m.Consistent promise) : m.claim.2.Consistent promise := by
  have hclaim := @claim_induction m (Consistent promise) (fun _ after => after.Consistent promise)
    (fun m t h ht hpending => h.put ht (works_fill h ht hpending _)) ?_ h.numbered h
  · obtain hnone | ⟨claimed, -, hclaim⟩ := hclaim
    · rw [hnone]
      exact h
    · exact hclaim
  · rintro m t claimed h ht hpending hready rfl
    exact (h.put ht (works_claim h ht hpending hready)).mark _

/-! ## Reports -/

/-- What a report must keep of a promise when it is applied to a task. -/
structure Keeps (promise : Promise) (m : Memory) (t : Task) (report : Report) : Prop where
  /-- A result is as promised. -/
  result : report.failureReason? = none → ∀ e graph base i node,
    t.Placed promise m e graph base i node → promise.result graph i report.result
  /-- An error is as promised. -/
  failure : ∀ error, report.failureReason? = some error → ∀ e graph base i node,
    t.Placed promise m e graph base i node → promise.failure graph error

/-- Completing a claimed task is work on it. -/
theorem works_complete (h : m.Consistent promise) {t : Task} (ht : t ∈ m.tasks)
    (hclaimed : t.status = .processing) {report : Report}
    (hreason : report.failureReason? = none) (hkeeps : Keeps promise m t report) :
    Works promise m t { t with status := .completed, result := some report.result } := by
  obtain ⟨_, _, _, _, _, hplaced⟩ := h.exists_placed ht
  refine ⟨⟨rfl, rfl, rfl, rfl, fun _ _ hvalue => hvalue⟩, fun _ _ hvalue => Or.inl hvalue,
    fun _ => hplaced.realizes.ready (by simp [hclaimed]), fun hdone => ?_, by simp,
    fun value hvalue => ?_⟩
  · rw [hclaimed] at hdone
    cases hdone
  · obtain rfl := Option.some.inj hvalue
    exact Or.inr ⟨Report.isFinite_of_failureReason? hreason, hkeeps.result hreason⟩

/-- The last task of an expression that is not completed stands for the root: every other node is a
dependency, and what depends on the task has not been claimed. -/
theorem Consistent.eq_root (h : m.Consistent promise) {t : Task} (ht : t ∈ m.tasks)
    {e : Expression} {graph : TaskGraph} {base : TaskId} {i : Nat} {node : Node}
    (hplaced : t.Placed promise m e graph base i node) (hopen : t.status ≠ .completed)
    (hothers : ∀ u ∈ m.tasks, u.expressionId = e.id → u.id ≠ t.id → u.status = .completed) :
    i = graph.root := by
  by_contra hne
  have hlt : i < graph.root := by
    have hsize := hplaced.lt_size
    unfold TaskGraph.root at hne ⊢
    omega
  obtain ⟨other, hother, slot, hslot⟩ := hplaced.shaped.consumed i hlt
  obtain ⟨k, hk⟩ := List.mem_iff_getElem?.mp hother
  have hshaped := hplaced.shaped.node k other hk
  have hbackward := hshaped.backward slot i hslot
  obtain ⟨u, hu, hid, hrealizes⟩ := hplaced.tasks.stored k other hk
  have hnumber : u.id ≠ t.id := by
    rw [hrealizes.id_eq, hplaced.realizes.id_eq]
    exact fun heq => absurd (position_eq heq) (by omega)
  have hcompleted := hothers u hu hid hnumber
  obtain ⟨value, -, hresult⟩ := hrealizes.exists_result hshaped (by simp [hcompleted]) hslot
  obtain ⟨d, hd, hdid, hdone, -⟩ := h.numbered.result?_eq_some_iff.mp hresult
  obtain rfl := h.numbered.eq_of_id_eq hd ht (hdid.trans hplaced.realizes.id_eq.symm)
  exact hopen hdone

/-- When all tasks of an expression are completed, every node has had a result. -/
theorem Consistent.all_results (h : m.Consistent promise) {e : Expression}
    (he : e ∈ m.expressions) (hopen : e.status.isTerminal = false) {graph : TaskGraph}
    (hgraph : Formula.compile e.formula = .ok graph)
    (hall : ∀ t ∈ m.tasks, t.expressionId = e.id → t.status = .completed) :
    ∀ i < graph.size, ∃ value, value.isFinite = true ∧ promise.result graph i value := by
  intro i hi
  obtain ⟨graph', hgraph', hprogress⟩ := h.progress e he
  obtain rfl : graph' = graph := Except.ok.inj (hgraph'.symm.trans hgraph)
  cases hprogress with
  | unfinished base _ _ _ htasks =>
    obtain ⟨t, ht, hid, hrealizes⟩ := htasks.stored i _ (List.getElem?_eq_getElem hi)
    obtain ⟨value, hvalue⟩ :=
      Option.isSome_iff_exists.mp (hrealizes.settled.mp (hall t ht hid))
    exact ⟨value, hrealizes.result value hvalue⟩
  | completed value hstatus =>
    rw [hstatus] at hopen
    cases hopen
  | failed hstatus =>
    rw [hstatus] at hopen
    cases hopen

/-- Completing a claimed task keeps the invariant. -/
theorem Consistent.complete (h : m.Consistent promise) {t : Task} (ht : t ∈ m.tasks)
    (hclaimed : t.status = .processing) {report : Report}
    (hreason : report.failureReason? = none) (hkeeps : Keeps promise m t report) :
    (m.complete t report.result).Consistent promise := by
  obtain ⟨e, graph, base, i, node, hplaced⟩ := h.exists_placed ht
  have hworks := works_complete h ht hclaimed hreason hkeeps
  have hdone := h.put ht hworks
  unfold Memory.complete
  simp only
  split_ifs with hall
  · have hcompleted : ∀ u ∈ (m.put { t with
        status := .completed, result := some report.result }).tasks,
          u.expressionId = e.id → u.status = .completed := by
      intro u hu hid
      refine beq_iff_eq.mp (List.all_eq_true.mp hall u (List.mem_filter.mpr ⟨hu, ?_⟩))
      exact beq_iff_eq.mpr (hid.trans hplaced.id_eq)
    have hroot := h.eq_root ht hplaced (by simp [hclaimed]) fun u hu hid hne =>
      hcompleted u (mem_put_of_ne hu hne) hid
    have hresult := hkeeps.result hreason e graph base i node hplaced
    have hresults := hdone.all_results hplaced.mem hplaced.unfinished hplaced.compiled hcompleted
    refine hdone.close hplaced.mem hplaced.id_eq (fun _ => rfl) rfl fun graph' hgraph' => ?_
    obtain rfl := Except.ok.inj (hplaced.compiled.symm.trans hgraph')
    exact .completed report.result rfl rfl hplaced.error_eq
      (Report.isFinite_of_failureReason? hreason) (hroot ▸ hresult) hresults
  · exact hdone

/-- A failure keeps the invariant. -/
theorem Consistent.fail (h : m.Consistent promise) {t : Task} (ht : t ∈ m.tasks) {report : Report}
    {error : String} (hreason : report.failureReason? = some error)
    (hkeeps : Keeps promise m t report) : (m.fail t.expressionId error).Consistent promise := by
  obtain ⟨e, graph, base, i, node, hplaced⟩ := h.exists_placed ht
  refine h.close hplaced.mem hplaced.id_eq (fun _ => rfl) rfl fun graph' hgraph' => ?_
  obtain rfl := Except.ok.inj (hplaced.compiled.symm.trans hgraph')
  exact .failed rfl hplaced.result_eq (Report.ne_empty_of_failureReason? hreason)
    (hkeeps.failure error hreason e graph base i node hplaced)

/-- A report awaited by a task names that task, which is claimed. -/
theorem Numbered.of_awaiting? (h : m.Numbered) {report : Report} {t : Task}
    (hawaiting : m.awaiting? report = some t) :
    t ∈ m.tasks ∧ t.id = report.id ∧ t.status = .processing := by
  obtain ⟨htask, hcondition⟩ := Option.filter_eq_some_iff.mp hawaiting
  obtain ⟨hmem, hid⟩ := h.task?_eq_some_iff.mp htask
  rw [Bool.and_eq_true] at hcondition
  exact ⟨hmem, hid, by simpa using hcondition.2⟩

/-- A report keeps the invariant if it keeps the promise. -/
theorem Consistent.apply (h : m.Consistent promise) (report : Report)
    (hkeeps : ∀ t ∈ m.tasks, t.id = report.id → t.status = .processing →
      Keeps promise m t report) : (m.apply report).Consistent promise := by
  unfold Memory.apply
  cases hawaiting : m.awaiting? report with
  | none => exact h
  | some t =>
    obtain ⟨ht, hid, hclaimed⟩ := h.numbered.of_awaiting? hawaiting
    have hkept := hkeeps t ht hid hclaimed
    cases hreason : report.failureReason? with
    | none => exact h.complete ht hclaimed hreason hkept
    | some error => exact h.fail ht hreason hkept

end Reckoner.Memory
