import Reckoner.Proofs.Scheduler.Completion
import Reckoner.Proofs.Worker.Holding

/-!
# The order of reports

A report that a task awaits writes that task, or closes the expression of the task; it looks at the
tasks of this expression alone. So reports on tasks of two expressions can change places. Those on
two tasks of one expression can as well if one of them brings a result: while two tasks are worked
on, the root waits for both, so neither of the results is the last one, and a failure drops the task
of the result before or after it is completed.
-/

namespace Reckoner

namespace Memory

variable {m n : Memory} {r s : Report} {t u : Task}

/-! ## Writes -/

/-- Writes of two tasks can change places. -/
theorem put_comm (hne : t.id ≠ u.id) : (m.put t).put u = (m.put u).put t := by
  unfold put
  simp only [List.map_map]
  congr 1
  refine List.map_congr_left fun v _ => ?_
  simp only [Function.comp_apply]
  by_cases ht : v.id = t.id
  · simp [ht, hne]
  · by_cases hu : v.id = u.id <;> simp [ht, hu, hne.symm]

/-- Two expressions are closed in either order. -/
theorem close_comm {id other : ExpressionId} (hne : id ≠ other) {f g : Expression → Expression}
    (hf : ∀ e, (f e).id = e.id) (hg : ∀ e, (g e).id = e.id) :
    (((m.revise id f).drop id).revise other g).drop other =
      (((m.revise other g).drop other).revise id f).drop id := by
  unfold drop revise
  simp only [List.map_map, List.filter_filter]
  congr 1
  · refine List.map_congr_left fun e _ => ?_
    simp only [Function.comp_apply]
    by_cases hid : e.id = id
    · simp [hid, hf, hne]
    · by_cases hother : e.id = other <;> simp [hid, hother, hg, hne.symm]
  · exact List.filter_congr fun v _ => Bool.and_comm ..

/-- What a report may write on behalf of a task: the task itself, or the end of its expression. -/
inductive Touches (t : Task) : (Memory → Memory) → Prop
  | puts (u : Task) (hid : u.id = t.id) (howner : u.expressionId = t.expressionId) :
      Touches t fun m => m.put u
  | closes (f : Expression → Expression) (hid : ∀ e, (f e).id = e.id) :
      Touches t fun m => (m.revise t.expressionId f).drop t.expressionId

/-- What reports on tasks of two expressions write can change places. -/
theorem Touches.comm {v w : Memory → Memory} (hv : Touches t v) (hw : Touches u w)
    (hm : m.Numbered) (ht : t ∈ m.tasks) (hu : u ∈ m.tasks)
    (hne : t.expressionId ≠ u.expressionId) : v (w m) = w (v m) := by
  cases hv with
  | puts t' hid howner =>
    cases hw with
    | puts u' huid huowner =>
      refine put_comm fun heq => hne ?_
      rw [hm.eq_of_id_eq ht hu (hid.symm.trans (heq.symm.trans huid))]
    | closes g => exact (close_put hm ht hid howner _ g).symm
  | closes f hf =>
    cases hw with
    | puts u' huid huowner => exact close_put hm hu huid huowner _ f
    | closes g hg => exact close_comm hne.symm hg hf

/-- What reports write on behalf of a task leaves the tasks of other expressions alone. -/
theorem Touches.mem_iff {w : Memory → Memory} (hw : Touches t w) (hm : m.Numbered)
    (ht : t ∈ m.tasks) {v : Task} (hne : v.expressionId ≠ t.expressionId) :
    v ∈ (w m).tasks ↔ v ∈ m.tasks := by
  cases hw with
  | puts u hid howner =>
    refine mem_put.trans ⟨?_, fun hv => Or.inr ⟨hv, fun hsame => hne ?_⟩⟩
    · rintro (⟨rfl, -⟩ | ⟨hv, -⟩)
      · exact absurd howner hne
      · exact hv
    · rw [hm.eq_of_id_eq hv ht (hsame.trans hid)]
  | closes f => exact mem_drop.trans (and_iff_left hne)

/-! ## What a report looks at -/

/-- A report that a task awaits does the same to all memories with the same tasks of the expression.
-/
theorem Numbered.exists_touches (hm : m.Numbered) (hawaiting : m.awaiting? r = some t) :
    ∃ w, Touches t w ∧ ∀ n : Memory, n.Numbered → n.awaiting? r = some t →
      (∀ v : Task, v.expressionId = t.expressionId → (v ∈ n.tasks ↔ v ∈ m.tasks)) →
        n.apply r = w n := by
  obtain ⟨error, hreason, -⟩ | ⟨hreason, hopen, -⟩ | ⟨hreason, hall, -⟩ :=
    apply_of_awaiting? hm hawaiting
  · refine ⟨_, .closes (fun e => { e with status := .error, error }) fun _ => rfl,
      fun n _ hn _ => ?_⟩
    exact apply_eq_fail hn hreason
  · refine ⟨_, .puts { t with status := .completed, result := some r.result } rfl rfl,
      fun n hnumbered hn hsame => ?_⟩
    obtain ⟨u, hu, howner, hne, hstatus⟩ := hopen
    obtain ⟨_, hfailed, -⟩ | ⟨-, -, hafter⟩ | ⟨-, hall, -⟩ := apply_of_awaiting? hnumbered hn
    · rw [hreason] at hfailed
      cases hfailed
    · exact hafter
    · exact absurd (hall u ((hsame u howner).mpr hu) howner hne) hstatus
  · refine ⟨_, .closes (fun e => { e with status := .completed, result := some r.result })
      fun _ => rfl, fun n hnumbered hn hsame => ?_⟩
    obtain ⟨_, hfailed, -⟩ | ⟨-, ⟨u, hu, howner, hne, hstatus⟩, -⟩ | ⟨-, -, hafter⟩ :=
      apply_of_awaiting? hnumbered hn
    · rw [hreason] at hfailed
      cases hfailed
    · exact absurd (hall u ((hsame u howner).mp hu) howner hne) hstatus
    · exact hafter

/-- A report that no task awaits is still not awaited behind any other one. -/
theorem Orderly.awaiting?_apply_eq_none (h : m.Orderly) (hawaiting : m.awaiting? r = none)
    (s : Report) : (m.apply s).awaiting? r = none := by
  cases hafter : (m.apply s).awaiting? r with
  | none => rfl
  | some t =>
    obtain ⟨ht, hid, hclaimed⟩ := (h.apply s).numbered.of_awaiting? hafter
    obtain ⟨hbefore, -⟩ := h.processing_apply ht hclaimed
    rw [h.awaiting?_eq_some hbefore hclaimed hid] at hawaiting
    cases hawaiting

/-- A report that no task awaits goes along with any other one. -/
theorem Orderly.apply_comm_of_unawaited (h : m.Orderly) (hawaiting : m.awaiting? r = none)
    (s : Report) : (m.apply r).apply s = (m.apply s).apply r := by
  rw [apply_eq_self hawaiting, apply_eq_self (h.awaiting?_apply_eq_none hawaiting s)]

/-! ## Tasks of two expressions -/

/-- A task still awaits its report behind one on a task of another expression. -/
theorem Orderly.awaiting?_apply_of_ne (h : m.Orderly) (hr : m.awaiting? r = some t)
    (hs : m.awaiting? s = some u) (hne : t.expressionId ≠ u.expressionId) :
    (m.apply s).awaiting? r = some t := by
  obtain ⟨ht, htid, htclaimed⟩ := h.numbered.of_awaiting? hr
  obtain ⟨hu, -, -⟩ := h.numbered.of_awaiting? hs
  obtain ⟨w, hw, hafter⟩ := h.numbered.exists_touches hs
  refine (h.apply s).awaiting?_eq_some ?_ htclaimed htid
  rw [hafter m h.numbered hs fun _ _ => Iff.rfl]
  exact (hw.mem_iff h.numbered hu hne).mpr ht

/-- Reports on tasks of two expressions can change places. -/
theorem Orderly.apply_comm_of_owner_ne (h : m.Orderly) (hr : m.awaiting? r = some t)
    (hs : m.awaiting? s = some u) (hne : t.expressionId ≠ u.expressionId) :
    (m.apply r).apply s = (m.apply s).apply r := by
  obtain ⟨ht, -, -⟩ := h.numbered.of_awaiting? hr
  obtain ⟨hu, -, -⟩ := h.numbered.of_awaiting? hs
  obtain ⟨v, hv, hvafter⟩ := h.numbered.exists_touches hr
  obtain ⟨w, hw, hwafter⟩ := h.numbered.exists_touches hs
  have hr' := h.awaiting?_apply_of_ne hr hs hne
  have hs' := h.awaiting?_apply_of_ne hs hr hne.symm
  have hfirst := hvafter m h.numbered hr fun _ _ => Iff.rfl
  have hsecond := hwafter m h.numbered hs fun _ _ => Iff.rfl
  rw [hwafter _ (h.apply r).numbered hs' fun x hx => ?_,
    hvafter _ (h.apply s).numbered hr' fun x hx => ?_, hfirst, hsecond]
  · exact (hv.comm hw h.numbered ht hu hne).symm
  · rw [hsecond]
    exact hw.mem_iff h.numbered hu (hx ▸ hne)
  · rw [hfirst]
    exact hv.mem_iff h.numbered ht (hx ▸ hne.symm)

/-! ## Tasks of one expression -/

/-- While two tasks of an expression are worked on, the root is open: once it is claimed, every
other task is completed. -/
theorem Orderly.exists_open (h : m.Orderly) (ht : t ∈ m.tasks) (hu : u ∈ m.tasks)
    (hne : t.id ≠ u.id) (howner : t.expressionId = u.expressionId)
    (htclaimed : t.status = .processing) (huclaimed : u.status = .processing) :
    ∃ v ∈ m.tasks, v.expressionId = t.expressionId ∧ v.id ≠ t.id ∧ v.id ≠ u.id ∧
      v.status ≠ .completed := by
  obtain ⟨e, graph, base, i, node, hplaced⟩ := h.exists_placed ht
  have hsize : graph.root < graph.size :=
    Nat.sub_one_lt (Nat.ne_of_gt (List.length_pos_iff.mpr hplaced.shaped.nonempty))
  obtain ⟨v, hv, hvowner, hrealizes⟩ := hplaced.tasks.stored _ _ (List.getElem?_eq_getElem hsize)
  have hpending : v.status = .pending := by
    by_contra hclaimed
    have hothers := hplaced.tasks.completed_of_root h.numbered hplaced.shaped hv hrealizes.id_eq
      hclaimed
    have hsame : ∀ w ∈ m.tasks, w.expressionId = t.expressionId → w.status = .processing →
        w.id = v.id := fun w hw hwowner hwclaimed => by
      by_contra hother
      have hdone := hothers w hw (hwowner.trans hplaced.id_eq.symm) hother
      rw [hwclaimed] at hdone
      cases hdone
    exact hne ((hsame t ht rfl htclaimed).trans (hsame u hu howner.symm huclaimed).symm)
  have hother : ∀ w : Task, w.status = .processing → v ≠ w := by
    rintro w hw rfl
    rw [hpending] at hw
    cases hw
  refine ⟨v, hv, hvowner.trans hplaced.id_eq, fun hid => ?_, fun hid => ?_, by simp [hpending]⟩
  · exact hother t htclaimed (h.numbered.eq_of_id_eq hv ht hid)
  · exact hother u huclaimed (h.numbered.eq_of_id_eq hv hu hid)

/-- A result of a task is not the last one while another task of its expression is worked on. -/
theorem Orderly.apply_eq_put (h : m.Orderly) (hr : m.awaiting? r = some t)
    (hreason : r.failureReason? = none)
    (hopen : ∃ v ∈ m.tasks, v.expressionId = t.expressionId ∧ v.id ≠ t.id ∧
      v.status ≠ .completed) :
    m.apply r = m.put { t with status := .completed, result := some r.result } := by
  obtain ⟨_, hfailed, -⟩ | ⟨-, -, hafter⟩ | ⟨-, hall, -⟩ := apply_of_awaiting? h.numbered hr
  · rw [hreason] at hfailed
    cases hfailed
  · exact hafter
  · obtain ⟨v, hv, hvowner, hvid, hstatus⟩ := hopen
    exact absurd (hall v hv hvowner hvid) hstatus

/-- A task still awaits its report behind a result of another task that is not the last one. -/
theorem Orderly.awaiting?_put (h : m.Orderly) (hr : m.awaiting? r = some t) {v : Task}
    (hne : t.id ≠ v.id) (hn : (m.put v).Consistent .any) : (m.put v).awaiting? r = some t := by
  obtain ⟨ht, htid, htclaimed⟩ := h.numbered.of_awaiting? hr
  exact hn.awaiting?_eq_some (mem_put_of_ne ht hne) htclaimed htid

/-- Results of two tasks of one expression can change places. -/
theorem Orderly.apply_comm_of_results (h : m.Orderly) (hr : m.awaiting? r = some t)
    (hs : m.awaiting? s = some u) (hne : t.id ≠ u.id) (howner : t.expressionId = u.expressionId)
    (hrreason : r.failureReason? = none) (hsreason : s.failureReason? = none) :
    (m.apply r).apply s = (m.apply s).apply r := by
  obtain ⟨ht, -, htclaimed⟩ := h.numbered.of_awaiting? hr
  obtain ⟨hu, -, huclaimed⟩ := h.numbered.of_awaiting? hs
  obtain ⟨v, hv, hvowner, hvt, hvu, hstatus⟩ := h.exists_open ht hu hne howner htclaimed huclaimed
  have hfirst := h.apply_eq_put hr hrreason ⟨v, hv, hvowner, hvt, hstatus⟩
  have hsecond := h.apply_eq_put hs hsreason ⟨v, hv, hvowner.trans howner, hvu, hstatus⟩
  have hmiddle := h.apply r
  have hmiddle' := h.apply s
  rw [hfirst] at hmiddle ⊢
  rw [hsecond] at hmiddle' ⊢
  rw [hmiddle.apply_eq_put (h.awaiting?_put hs hne.symm hmiddle.toConsistent) hsreason
      ⟨v, mem_put_of_ne hv hvt, hvowner.trans howner, hvu, hstatus⟩,
    hmiddle'.apply_eq_put (h.awaiting?_put hr hne hmiddle'.toConsistent) hrreason
      ⟨v, mem_put_of_ne hv hvu, hvowner, hvt, hstatus⟩]
  exact put_comm hne

/-- No task of an expression that has failed awaits a report. -/
theorem Orderly.awaiting?_fail (h : m.Orderly) (hs : m.awaiting? s = some u) (error : String) :
    (m.fail u.expressionId error).awaiting? s = none := by
  obtain ⟨hu, huid, -⟩ := h.numbered.of_awaiting? hs
  have hn : (m.fail u.expressionId error).Numbered :=
    (h.numbered.revise (f := fun e => { e with status := .error, error }) _ fun _ => rfl).drop _
  cases hafter : (m.fail u.expressionId error).awaiting? s with
  | none => rfl
  | some v =>
    obtain ⟨hv, hvid, -⟩ := hn.of_awaiting? hafter
    obtain ⟨hv, hvowner⟩ := mem_drop.mp hv
    exact absurd (congrArg Task.expressionId (h.numbered.eq_of_id_eq hv hu (hvid.trans huid.symm)))
      hvowner

/-- A failure and a result of two tasks of one expression can change places: the failure stands. -/
theorem Orderly.apply_comm_of_failure (h : m.Orderly) (hr : m.awaiting? r = some t)
    (hs : m.awaiting? s = some u) (hne : t.id ≠ u.id) (howner : t.expressionId = u.expressionId)
    {error : String} (hrreason : r.failureReason? = some error)
    (hsreason : s.failureReason? = none) : (m.apply r).apply s = (m.apply s).apply r := by
  obtain ⟨ht, -, htclaimed⟩ := h.numbered.of_awaiting? hr
  obtain ⟨hu, -, -⟩ := h.numbered.of_awaiting? hs
  have hsecond := h.apply_eq_put hs hsreason ⟨t, ht, howner, hne, by simp [htclaimed]⟩
  have hmiddle := h.apply s
  rw [hsecond] at hmiddle ⊢
  generalize hdone : ({ u with status := .completed, result := some s.result } : Task) = done
    at hmiddle ⊢
  have hid : done.id = u.id := by rw [← hdone]
  have hexpression : done.expressionId = u.expressionId := by rw [← hdone]
  have hr' := h.awaiting?_put hr (hid ▸ hne) hmiddle.toConsistent
  have hdropped : (m.put done).fail u.expressionId error = m.fail u.expressionId error :=
    close_put_self h.numbered hu hid hexpression _
  rw [apply_eq_fail hr hrreason, apply_eq_fail hr' hrreason, howner, hdropped,
    apply_eq_self (h.awaiting?_fail hs error)]

/-! ## Any two reports -/

/-- Reports on two tasks can change places, unless both fail one expression. -/
theorem Orderly.apply_comm (h : m.Orderly) (hne : r.id ≠ s.id)
    (hresult : ∀ t ∈ m.tasks, ∀ u ∈ m.tasks, t.id = r.id → u.id = s.id →
      t.expressionId = u.expressionId → r.failureReason? = none ∨ s.failureReason? = none) :
    (m.apply r).apply s = (m.apply s).apply r := by
  cases hr : m.awaiting? r with
  | none => exact h.apply_comm_of_unawaited hr s
  | some t =>
    cases hs : m.awaiting? s with
    | none => exact (h.apply_comm_of_unawaited hs r).symm
    | some u =>
      obtain ⟨ht, htid, -⟩ := h.numbered.of_awaiting? hr
      obtain ⟨hu, huid, -⟩ := h.numbered.of_awaiting? hs
      have hids : t.id ≠ u.id := fun hid => hne (htid.symm.trans (hid.trans huid))
      by_cases howner : t.expressionId = u.expressionId
      · cases hrreason : r.failureReason? with
        | none =>
          cases hsreason : s.failureReason? with
          | none => exact h.apply_comm_of_results hr hs hids howner hrreason hsreason
          | some error =>
            exact (h.apply_comm_of_failure hs hr hids.symm howner.symm hsreason hrreason).symm
        | some error =>
          -- One of the two brings a result, so it is the other one.
          have hsreason := (hresult t ht u hu htid huid howner).resolve_left (by simp [hrreason])
          exact h.apply_comm_of_failure hr hs hids howner hrreason hsreason
      · exact h.apply_comm_of_owner_ne hr hs howner

end Memory

namespace Course

/-- **Reports can change places.** Whatever has been called for so far, two reports on different
tasks leave the same store in either order, be they due or not; only when both fail a task of one
expression does the first one decide on the error. -/
theorem reports_commute (course : Course) (k : Nat) (first second : Instant) {r s : Report}
    (hne : r.id ≠ s.id)
    (hresult : ∀ t ∈ (course.memory k).tasks, ∀ u ∈ (course.memory k).tasks, t.id = r.id →
      u.id = s.id → t.expressionId = u.expressionId →
        (r.error = "" ∧ r.result.isFinite = true) ∨ (s.error = "" ∧ s.result.isFinite = true)) :
    (Step.complete s).act second ((Step.complete r).act first (course.memory k)) =
      (Step.complete r).act second ((Step.complete s).act first (course.memory k)) := by
  have horderly := course.orderly k
  rw [Step.act_complete horderly, Step.act_complete horderly,
    Step.act_complete (horderly.apply r), Step.act_complete (horderly.apply s)]
  refine horderly.apply_comm hne fun t ht u hu htid huid howner => ?_
  rw [Report.failureReason?_eq_none_iff, Report.failureReason?_eq_none_iff]
  exact hresult t ht u hu htid huid howner

/-- A formula with two tasks that wait for nothing, both of which are handed out. -/
def twins : Course where
  time _ := ⟨0, 0⟩
  step k := [.submit 7 "(1/0)+(2*3)", .read, .read].getD k .read

/-- Both tasks of the formula are worked on: the failure of one and the result of the other one
leave the failed expression and no task, in either order. -/
theorem reports_commute_twins :
    let failure : Report := .failure 1 1 "division by zero"
    let result : Report := .success 2 1 ⟨0x4018000000000000⟩
    let failed : Expression :=
      ⟨1, 7, "(1/0)+(2*3)", .error, none, "division by zero", ⟨0, 0⟩, ⟨0, 0⟩⟩
    (Step.complete result).act ⟨9, 0⟩ ((Step.complete failure).act ⟨8, 0⟩ (twins.memory 3)) =
        ⟨[failed], [], 1, 3⟩ ∧
      (Step.complete failure).act ⟨9, 0⟩ ((Step.complete result).act ⟨8, 0⟩ (twins.memory 3)) =
        ⟨[failed], [], 1, 3⟩ := by
  intro failure result failed
  have hfirst : (Step.complete result).act ⟨9, 0⟩
      ((Step.complete failure).act ⟨8, 0⟩ (twins.memory 3)) = ⟨[failed], [], 1, 3⟩ := by
    decide +kernel
  refine ⟨hfirst, ?_⟩
  rw [← reports_commute twins 3 ⟨8, 0⟩ ⟨9, 0⟩ (by decide) (by decide +kernel), hfirst]

end Course

end Reckoner
