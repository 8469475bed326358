import Mathlib.Data.List.Forall2
import Mathlib.Data.List.Sort
import Reckoner.Proofs.Scheduler.Change

/-!
# The life of an expression

An expression begins as pending, is being worked on once one of its tasks has been handed out, and
ends with a result or an error; it never goes back, skips nothing and never changes behind its end,
whatever is reported. Its tasks are stored until then.
-/

namespace Reckoner

/-- The status that may follow another one. -/
inductive ExpressionStatus.Next : ExpressionStatus → ExpressionStatus → Prop
  | begin : Next .pending .processing
  | complete : Next .processing .completed
  | fail : Next .processing .error

/-- What one call may make of the row with a number. -/
inductive Expression.Moves : Option Expression → Option Expression → Prop
  | absent : Moves none none
  | created (e : Expression) (hpending : e.status = .pending) : Moves none (some e)
  | same (e : Expression) : Moves (some e) (some e)
  /-- The status moves on; the owner, the formula and the times stay. -/
  | next (d : Expression) (status : ExpressionStatus) (result : Option Binary64) (error : String)
      (hnext : d.status.Next status) : Moves (some d) (some { d with status, result, error })

/-! ## The stored tasks of an expression -/

/-- Two lists in the order of a key, each entry of which belongs to one of the other list with the
same key, belong to each other entry by entry. -/
theorem forall₂_of_keys {α : Type} {r : α → α → Prop} {key : α → Int}
    (hkey : ∀ x y, r x y → key x = key y) {xs ys : List α} (hxs : xs.Pairwise (key · < key ·))
    (hys : ys.Pairwise (key · < key ·)) (hleft : ∀ x ∈ xs, ∃ y ∈ ys, r x y)
    (hright : ∀ y ∈ ys, ∃ x ∈ xs, r x y) : List.Forall₂ r xs ys := by
  have hkeys : xs.map key = ys.map key := by
    refine (List.pairwise_map.mpr hxs).eq_of_mem_iff (List.pairwise_map.mpr hys) fun k => ?_
    simp only [List.mem_map]
    constructor
    · rintro ⟨x, hx, rfl⟩
      obtain ⟨y, hy, hxy⟩ := hleft x hx
      exact ⟨y, hy, (hkey x y hxy).symm⟩
    · rintro ⟨y, hy, rfl⟩
      obtain ⟨x, hx, hxy⟩ := hright y hy
      exact ⟨x, hx, hkey x y hxy⟩
  have hsame : List.Forall₂ (· = ·) (xs.map key) (ys.map key) := by
    rw [List.forall₂_eq_eq_eq, hkeys]
  rw [List.forall₂_map_left_iff, List.forall₂_map_right_iff] at hsame
  obtain ⟨hlength, hzip⟩ := List.forall₂_iff_zip.mp hsame
  refine List.forall₂_iff_zip.mpr ⟨hlength, fun {x y} hxy => ?_⟩
  obtain ⟨hx, hy⟩ := List.of_mem_zip hxy
  obtain ⟨y', hy', hr⟩ := hleft x hx
  obtain rfl := Memory.eq_of_key_eq hys hy' hy ((hkey x y' hr).symm.trans (hzip hxy))
  exact hr

/-- A task that stands for a node has grown from the new task of the node. -/
theorem Task.Fresh.grows {promise : Promise} {m : Memory} {id : ExpressionId} {graph : TaskGraph}
    {base : TaskId} {i : Nat} {node : Node} {s t : Task} (hs : s.Fresh id base i node)
    (ht : t.Realizes promise m graph base i node) (hid : t.expressionId = id) : s.Grows t := by
  refine ⟨ht.id_eq.trans hs.id_eq.symm, hid.trans hs.expressionId_eq.symm,
    ht.operation_eq.trans hs.operation_eq.symm, Operands.ext_get fun slot => ?_,
    fun slot value hvalue => ?_⟩
  · rw [ht.dependencies_eq, hs.dependencies_eq]
  · rw [hs.args_eq] at hvalue
    exact ht.literal slot value hvalue

/-- The stored tasks of an unfinished expression are those of its graph, in order. -/
theorem Evaluating.forall₂_grows {promise : Promise} {m : Memory} {id : ExpressionId}
    {graph : TaskGraph} {base : TaskId} (h : Evaluating promise m id graph base)
    (hm : m.Numbered) (hshaped : graph.Shaped) :
    List.Forall₂ Task.Grows (Task.ofGraph id base graph) (m.tasksOf id) := by
  refine forall₂_of_keys (fun _ _ hgrows => hgrows.id_eq.symm)
    (Task.pairwise_ofNodes id _ base _) (hm.tasks.filter _) (fun s hs => ?_) fun t ht => ?_
  · obtain ⟨i, node, hi, hfresh⟩ := Task.exists_fresh hshaped hs
    obtain ⟨t, ht, hid, hrealizes⟩ := h.stored i node hi
    exact ⟨t, List.mem_filter.mpr ⟨ht, beq_iff_eq.mpr hid⟩, hfresh.grows hrealizes hid⟩
  · obtain ⟨ht, hid⟩ := List.mem_filter.mp ht
    have hid := beq_iff_eq.mp hid
    obtain ⟨i, node, hi, hrealizes⟩ := h.exists_node hm ht hid
    obtain ⟨s, hs, hfresh⟩ := Task.fresh_ofGraph hshaped id base hi
    exact ⟨s, List.mem_of_getElem? hs, hfresh.grows hrealizes hid⟩

namespace Course

variable {course : Course} {k : Nat}

/-! ## Single calls -/

/-- The row of an expression moves on by at most one status. -/
theorem TurnsExpression.moves {d e : Expression} (h : course.TurnsExpression k d e) :
    Expression.Moves (some d) (some e) := by
  cases h with
  | stays hafter =>
    rw [hafter]
    exact .same d
  | begun t _ _ hbefore hafter =>
    rw [hafter]
    exact .next d .processing d.result d.error (hbefore ▸ .begin)
  | failed report t error _ _ _ _ hbefore hafter =>
    rw [hafter]
    exact .next d .error d.result error (hbefore ▸ .fail)
  | completed report t _ _ _ _ _ hbefore hafter =>
    rw [hafter]
    exact .next d .completed (some report.result) d.error (hbefore ▸ .complete)

/-- An expression that has begun does not become pending again. -/
theorem TurnsExpression.ne_pending {d e : Expression} (h : course.TurnsExpression k d e)
    (hbegun : d.status ≠ .pending) : e.status ≠ .pending := by
  cases h with
  | stays hafter => rwa [hafter]
  | begun _ _ _ _ hafter | failed _ _ _ _ _ _ _ _ hafter | completed _ _ _ _ _ _ _ _ hafter =>
    rw [hafter]
    simp

/-- What one call makes of the row with a number. -/
theorem moves (course : Course) (id : ExpressionId) (k : Nat) :
    Expression.Moves ((course.memory k).expression? id)
      ((course.memory (k + 1)).expression? id) := by
  have hbefore : ∀ {d}, (course.memory k).expression? id = some d ↔
      d ∈ (course.memory k).expressions ∧ d.id = id := (course.numbered k).expression?_eq_some_iff
  have hafter : ∀ {e}, (course.memory (k + 1)).expression? id = some e ↔
      e ∈ (course.memory (k + 1)).expressions ∧ e.id = id :=
    (course.numbered (k + 1)).expression?_eq_some_iff
  cases hd : (course.memory k).expression? id with
  | none =>
    cases he : (course.memory (k + 1)).expression? id with
    | none => exact .absent
    | some e =>
      obtain ⟨hmem, hid⟩ := hafter.mp he
      obtain ⟨d, hdmem, hturns⟩ | ⟨_, _, hpending⟩ := expression_source hmem
      · rw [hbefore.mpr ⟨hdmem, hturns.id_eq.symm.trans hid⟩] at hd
        cases hd
      · exact .created e hpending
  | some d =>
    obtain ⟨hmem, hid⟩ := hbefore.mp hd
    obtain ⟨e, hemem, hturns⟩ := expression_kept hmem
    rw [hafter.mpr ⟨hemem, hturns.id_eq.trans hid⟩]
    exact hturns.moves

/-! ## Whole courses -/

/-- An expression that has begun is one of which a task has been handed out. -/
theorem exists_handsOut_of_ne_pending {e : Expression} (he : e ∈ (course.memory k).expressions)
    (hbegun : e.status ≠ .pending) :
    ∃ j < k, ∃ t, course.HandsOut j t ∧ t.expressionId = e.id := by
  induction k generalizing e with
  | zero => cases he
  | succ k ih =>
    obtain ⟨d, hd, hturns⟩ | ⟨_, _, hpending⟩ := expression_source he
    · by_cases hbefore : d.status = .pending
      · cases hturns with
        | stays hafter => exact absurd (hafter ▸ hbefore) hbegun
        | begun t hout howner _ hafter =>
          exact ⟨k, Nat.lt_succ_self k, t, hout, by rw [hafter, howner]⟩
        | failed _ _ _ _ _ _ _ hprocessing | completed _ _ _ _ _ _ _ hprocessing =>
          rw [hbefore] at hprocessing
          cases hprocessing
      · obtain ⟨j, hj, t, hout, howner⟩ := ih hd hbefore
        exact ⟨j, Nat.lt_succ_of_lt hj, t, hout, howner.trans hturns.id_eq.symm⟩
    · exact absurd hpending hbegun

/-- An expression of which a task has been handed out has begun. -/
theorem ne_pending_of_handsOut {j : Nat} {t : Task} (hout : course.HandsOut j t) (hj : j < k)
    {e : Expression} (he : e ∈ (course.memory k).expressions) (howner : t.expressionId = e.id) :
    e.status ≠ .pending := by
  have hclaims := hout.claims
  obtain ⟨d, hd, hid, -⟩ := (course.orderly (j + 1)).owned t hclaims.mem
  have hbegun := (course.orderly (j + 1)).begun t hclaims.mem (by simp [hclaims.status_eq]) d hd hid
  obtain ⟨f, hf, hfid, hfbegun⟩ := later (P := fun e => e.status ≠ .pending)
    (fun _ _ _ hturns => hturns.ne_pending) hj hd hbegun
  obtain rfl := (course.numbered k).eq_of_expression_id_eq hf he (hfid.trans (hid.trans howner))
  exact hfbegun

/-- An expression is pending as long as none of its tasks has been handed out. -/
theorem status_eq_pending_iff {e : Expression} (he : e ∈ (course.memory k).expressions) :
    e.status = .pending ↔ ∀ j < k, ∀ t, course.HandsOut j t → t.expressionId ≠ e.id := by
  refine ⟨fun hpending j hj t hout howner => ?_, fun hnone => ?_⟩
  · exact ne_pending_of_handsOut hout hj he howner hpending
  · by_contra hbegun
    obtain ⟨j, hj, t, hout, howner⟩ := exists_handsOut_of_ne_pending he hbegun
    exact hnone j hj t hout howner

/-- A finished expression is found as it is from then on: no other row may follow its own. -/
theorem expression?_of_isTerminal {e : Expression} (he : e ∈ (course.memory k).expressions)
    (hterminal : e.status.isTerminal = true) {l : Nat} (hle : k ≤ l) :
    (course.memory l).expression? e.id = some e := by
  obtain ⟨f, hf, hid, rfl⟩ := later (P := fun f => f = e)
    (fun _ _ _ hturn hbefore => (hturn.eq_of_isTerminal (hbefore ▸ hterminal)).trans hbefore)
    hle he rfl
  exact (course.numbered l).expression?_eq_some_iff.mpr ⟨hf, hid⟩

/-- The tasks of a finished expression are gone. -/
theorem tasksOf_eq_nil {e : Expression} (he : e ∈ (course.memory k).expressions)
    (hterminal : e.status.isTerminal = true) : (course.memory k).tasksOf e.id = [] := by
  refine List.filter_eq_nil_iff.mpr fun t ht howner => ?_
  obtain ⟨d, hd, hid, hopen⟩ := (course.orderly k).owned t ht
  obtain rfl := (course.numbered k).eq_of_expression_id_eq hd he
    (hid.trans (beq_iff_eq.mp howner))
  rw [hterminal] at hopen
  cases hopen

/-- What holds of a stored expression at a place of a course. -/
structure Lives (course : Course) (k : Nat) (e : Expression) : Prop where
  /-- Behind its end it never changes. -/
  fixed : e.status.isTerminal = true →
    ∀ l, k ≤ l → (course.memory l).expression? e.id = some e
  /-- Exactly the completed expressions have a result. -/
  result_isSome_iff : e.result.isSome = true ↔ e.status = .completed
  /-- A result is finite. -/
  result_finite : ∀ value, e.result = some value → value.isFinite = true
  /-- Exactly the failed expressions have an error. -/
  error_ne_iff : e.error ≠ "" ↔ e.status = .error
  /-- Exactly the pending expressions have no task that was handed out. -/
  pending_iff : e.status = .pending ↔ ∀ j < k, ∀ t, course.HandsOut j t → t.expressionId ≠ e.id
  /-- The tasks of the graph are stored, in order and with the operands that are known by now, until
  the expression ends, and none from then on. -/
  tasks : ∃ graph, Formula.compile e.formula = .ok graph ∧
    (e.status.isTerminal = true → (course.memory k).tasksOf e.id = []) ∧
    (e.status.isTerminal = false → ∃ base,
      List.Forall₂ Task.Grows (Task.ofGraph e.id base graph) ((course.memory k).tasksOf e.id))

/-- Every stored expression lives so: what has come of it so far is known from its progress. -/
theorem lives {e : Expression} (he : e ∈ (course.memory k).expressions) : course.Lives k e := by
  have hfixed : e.status.isTerminal = true →
      ∀ l, k ≤ l → (course.memory l).expression? e.id = some e :=
    fun hterminal _ hl => expression?_of_isTerminal he hterminal hl
  have hpending := status_eq_pending_iff he
  obtain ⟨graph, hgraph, hprogress⟩ := (course.orderly k).progress e he
  cases hprogress with
  | unfinished base hstatus hresult herror htasks =>
    have hne : e.status ≠ .completed ∧ e.status ≠ .error := by
      constructor <;> (intro heq; rw [heq] at hstatus; cases hstatus)
    have hstored := htasks.forall₂_grows (course.numbered k) (Formula.shaped_of_compile hgraph)
    exact ⟨hfixed, by simp [hresult, hne], by simp [hresult], by simp [herror, hne], hpending,
      graph, hgraph, by simp [hstatus], fun _ => ⟨base, hstored⟩⟩
  | completed value hstatus hresult herror hfinite =>
    have hterminal : e.status.isTerminal = true := by rw [hstatus]; rfl
    refine ⟨hfixed, by simp [hresult, hstatus], fun v hv => ?_, by simp [herror, hstatus], hpending,
      graph, hgraph, fun _ => tasksOf_eq_nil he hterminal, by simp [hterminal]⟩
    obtain rfl := Option.some.inj (hresult.symm.trans hv)
    exact hfinite
  | failed hstatus hresult herror =>
    have hterminal : e.status.isTerminal = true := by rw [hstatus]; rfl
    exact ⟨hfixed, by simp [hresult, hstatus], by simp [hresult], by simp [herror, hstatus],
      hpending, graph, hgraph, fun _ => tasksOf_eq_nil he hterminal, by simp [hterminal]⟩

/-- **The life of an expression under any calls.** Whatever is submitted, asked for and reported,
the row of an expression moves on by at most one status in a call: from pending to processing when
one of its tasks is handed out for the first time, and from there to its end, behind which it never
changes. It has a result, which is finite, exactly when it is completed, and an error exactly when
it has failed; all tasks of its graph are stored until its end, and none behind it. -/
theorem lifecycle (course : Course) (id : ExpressionId) :
    (∀ k, Expression.Moves ((course.memory k).expression? id)
      ((course.memory (k + 1)).expression? id)) ∧
    ∀ k e, (course.memory k).expression? id = some e → course.Lives k e :=
  ⟨course.moves id, fun k _ hfound =>
    lives ((course.numbered k).expression?_eq_some_iff.mp hfound).1⟩

/-- In the sample the first formula is completed by the report on its outer minus, for good. -/
theorem lifecycle_sample :
    let done : Expression :=
      ⟨1, 7, "-(-(2))", .completed, some ⟨0x4000000000000000⟩, "", ⟨0, 0⟩, ⟨0, 0⟩⟩
    Expression.Moves (some { done with status := .processing, result := none }) (some done) ∧
      ∀ l, 8 ≤ l → (sample.memory l).expression? 1 = some done := by
  intro done
  have hbefore : (sample.memory 7).expression? 1 =
      some { done with status := .processing, result := none } := by decide +kernel
  have hafter : (sample.memory 8).expression? 1 = some done := by decide +kernel
  obtain ⟨hmoves, hlives⟩ := lifecycle sample 1
  have hturn := hmoves 7
  rw [hbefore, hafter] at hturn
  exact ⟨hturn, (hlives 8 done hafter).fixed rfl⟩

end Course

end Reckoner
