import Reckoner.Proofs.Scheduler.Effect

/-!
# The store under any reports

Workers may report whatever they like. The store is then still consistent, though nothing is known
of results and errors; the expression of a claimed task has begun, and an unfinished expression has
an open task.
-/

namespace Reckoner

/-- Nothing is known of accepted reports. -/
def Promise.any : Promise := ⟨fun _ _ _ => True, fun _ _ => True⟩

namespace Memory

variable {m n : Memory}

/-- Any report keeps what is known. -/
theorem keeps_any (m : Memory) (t : Task) (report : Report) : Keeps .any m t report :=
  ⟨fun _ _ _ _ _ _ _ => trivial, fun _ _ _ _ _ _ _ _ => trivial⟩

/-- The invariant under any reports. -/
structure Orderly (m : Memory) : Prop extends m.Consistent .any where
  /-- The expression of a claimed task is not pending. -/
  begun : ∀ t ∈ m.tasks, t.status ≠ .pending → ∀ e ∈ m.expressions, e.id = t.expressionId →
    e.status ≠ .pending
  /-- An unfinished expression has a task that is not completed. -/
  unfinished : ∀ e ∈ m.expressions, e.status.isTerminal = false →
    ∃ t ∈ m.tasks, t.expressionId = e.id ∧ t.status ≠ .completed

/-- The expression of a claimed task is being worked on. -/
theorem Orderly.processing (h : m.Orderly) {t : Task} (ht : t ∈ m.tasks)
    (hclaimed : t.status ≠ .pending) {e : Expression} (he : e ∈ m.expressions)
    (hid : e.id = t.expressionId) : e.status = .processing := by
  have hbegun := h.begun t ht hclaimed e he hid
  obtain ⟨owner, howner, hownerId, hopen⟩ := h.owned t ht
  obtain rfl := h.numbered.eq_of_expression_id_eq howner he (hownerId.trans hid.symm)
  cases hstatus : owner.status with
  | processing => rfl
  | pending => exact absurd hstatus hbegun
  | completed | error =>
    rw [hstatus] at hopen
    cases hopen

/-- Nothing is stored at first. -/
theorem Orderly.empty : Memory.empty.Orderly :=
  ⟨.empty _, fun _ h => absurd h List.not_mem_nil, fun _ h => absurd h List.not_mem_nil⟩

/-- A new expression keeps the invariant: all of its tasks are pending, and there is one. -/
theorem Orderly.create (h : m.Orderly) (now : Instant) (userId : UserId) {formula : String}
    {graph : TaskGraph} (hgraph : Formula.compile formula = .ok graph) :
    (m.create now userId formula graph).2.Orderly := by
  have hshaped := Formula.shaped_of_compile hgraph
  refine ⟨h.toConsistent.create now userId hgraph, fun t ht hclaimed e he hid => ?_,
    fun e he hopen => ?_⟩
  · rcases List.mem_append.mp ht with ht | ht
    · rcases List.mem_append.mp he with he | he
      · exact h.begun t ht hclaimed e he hid
      · obtain ⟨owner, howner, hownerId, -⟩ := h.owned t ht
        have hle := h.numbered.expression_le owner howner
        rw [hownerId, ← hid, List.mem_singleton.mp he] at hle
        exact absurd hle (Int.not_le_of_gt (Int.lt_succ _))
    · obtain ⟨_, _, _, hfresh⟩ := Task.exists_fresh hshaped ht
      exact absurd hfresh.status_eq hclaimed
  · rcases List.mem_append.mp he with he | he
    · obtain ⟨t, ht, ht'⟩ := h.unfinished e he hopen
      exact ⟨t, List.mem_append_left _ ht, ht'⟩
    · rw [List.mem_singleton.mp he]
      have hfirst := List.getElem?_eq_getElem (List.length_pos_iff.mpr hshaped.nonempty)
      obtain ⟨t, ht, hfresh⟩ := Task.fresh_ofGraph hshaped (m.lastExpression + 1) m.lastTask hfirst
      refine ⟨t, List.mem_append_right _ (List.mem_of_getElem? ht), hfresh.expressionId_eq, ?_⟩
      simp [hfresh.status_eq]

/-- Marking an expression changes it if it is pending, and no other one. -/
theorem mem_mark {id : ExpressionId} {e : Expression} :
    e ∈ (m.mark id).expressions ↔ ∃ d ∈ m.expressions,
      e = if d.id = id ∧ d.status = .pending then { d with status := .processing } else d := by
  rw [mark, mem_revise]
  refine exists_congr fun d => and_congr_right fun _ => ?_
  by_cases hid : d.id = id <;> simp [hid]

/-- A claim keeps the invariant: the expression of the task begins. -/
theorem Orderly.claims (h : m.Orderly) {t : Task} (hclaims : m.Claims t n)
    (hn : n.Consistent .any) : n.Orderly := by
  obtain ⟨s, hs, -, hgrows⟩ := hclaims.source
  refine ⟨hn, fun u hu hclaimed e he hid hpending => ?_, fun e he hopen => ?_⟩
  · rw [hclaims.expressions_eq] at he
    obtain ⟨d, hd, rfl⟩ := mem_mark.mp he
    split_ifs at hid hpending with hbegins
    have hne : u.id ≠ t.id := fun heq => by
      obtain rfl := hn.numbered.eq_of_id_eq hu hclaims.mem heq
      exact hbegins ⟨hid, hpending⟩
    obtain ⟨s', hs', hstays⟩ := hclaims.others u hu hne
    exact h.begun s' hs' (hstays.status_eq ▸ hclaimed) d hd (hid.trans hstays.expressionId_eq)
      hpending
  · have hbefore : ∃ d ∈ m.expressions, d.id = e.id ∧ d.status.isTerminal = false := by
      rw [hclaims.expressions_eq] at he
      obtain ⟨d, hd, rfl⟩ := mem_mark.mp he
      refine ⟨d, hd, ?_⟩
      split_ifs at hopen ⊢ with hbegins
      · exact ⟨rfl, by rw [hbegins.2]; rfl⟩
      · exact ⟨rfl, hopen⟩
    obtain ⟨d, hd, hid, hd'⟩ := hbefore
    obtain ⟨u, hu, howner, hstatus⟩ := h.unfinished d hd hd'
    by_cases hsame : u.id = t.id
    · obtain rfl := h.numbered.eq_of_id_eq hu hs (hsame.trans hgrows.id_eq)
      refine ⟨t, hclaims.mem, hgrows.expressionId_eq.trans (howner.trans hid), ?_⟩
      simp [hclaims.status_eq]
    · obtain ⟨u', hu', hstays⟩ := hclaims.kept u hu hsame
      exact ⟨u', hu', hstays.expressionId_eq.trans (howner.trans hid), hstays.status_eq ▸ hstatus⟩

/-- The end of an expression keeps the invariant: none of its tasks is left. -/
theorem Orderly.close (h : m.Orderly) {id : ExpressionId} {f : Expression → Expression}
    (hid : ∀ e, (f e).id = e.id) (hterminal : ∀ e, (f e).status.isTerminal = true)
    (hn : ((m.revise id f).drop id).Consistent .any) : ((m.revise id f).drop id).Orderly := by
  refine ⟨hn, fun t ht hclaimed e he heid => ?_, fun e he hopen => ?_⟩
  · obtain ⟨d, hd, rfl⟩ := mem_revise.mp he
    obtain ⟨ht, hne⟩ := mem_drop.mp ht
    split_ifs at heid ⊢ with hsame
    · exact absurd (heid.symm.trans ((hid d).trans hsame)) hne
    · exact h.begun t ht hclaimed d hd heid
  · obtain ⟨d, hd, rfl⟩ := mem_revise.mp he
    split_ifs at hopen ⊢ with hsame
    · rw [hterminal] at hopen
      cases hopen
    · obtain ⟨t, ht, howner, hstatus⟩ := h.unfinished d hd hopen
      exact ⟨t, mem_drop.mpr ⟨ht, howner ▸ hsame⟩, howner, hstatus⟩

/-- A result of a task keeps the invariant if another task of the expression is open. -/
theorem Orderly.complete (h : m.Orderly) {t u : Task} (ht : t ∈ m.tasks) (hgrows : t.Grows u)
    (hclaimed : t.status ≠ .pending)
    (hopen : ∃ v ∈ m.tasks, v.expressionId = t.expressionId ∧ v.id ≠ t.id ∧
      v.status ≠ .completed) (hn : (m.put u).Consistent .any) : (m.put u).Orderly := by
  refine ⟨hn, fun v hv hvclaimed e he hid => ?_, fun e he heopen => ?_⟩
  · rcases mem_put.mp hv with ⟨rfl, -⟩ | ⟨hv, -⟩
    · exact h.begun t ht hclaimed e he (hid.trans hgrows.expressionId_eq)
    · exact h.begun v hv hvclaimed e he hid
  · obtain ⟨v, hv, howner, hstatus⟩ := h.unfinished e he heopen
    by_cases hsame : v.id = u.id
    · obtain rfl := h.numbered.eq_of_id_eq hv ht (hsame.trans hgrows.id_eq)
      obtain ⟨w, hw, hwowner, hne, hwstatus⟩ := hopen
      exact ⟨w, mem_put_of_ne hw (hgrows.id_eq ▸ hne), hwowner.trans howner, hwstatus⟩
    · exact ⟨v, mem_put_of_ne hv hsame, howner, hstatus⟩

/-- A claim, or an attempt at one, keeps the invariant. -/
theorem Orderly.claim (h : m.Orderly) : m.claim.2.Orderly := by
  obtain hnone | ⟨t, -, hclaims⟩ := claim_cases h.numbered
  · rw [hnone]
    exact h
  · exact h.claims hclaims h.toConsistent.claim

/-- Any report keeps the invariant. -/
theorem Orderly.apply (h : m.Orderly) (report : Report) : (m.apply report).Orderly := by
  have hconsistent := h.toConsistent.apply report fun t _ _ _ => keeps_any m t report
  have happlies := apply_cases h.numbered report
  generalize m.apply report = n at happlies hconsistent ⊢
  cases happlies with
  | dropped => exact h
  | failed t error => exact h.close (fun _ => rfl) (fun _ => rfl) hconsistent
  | completed t hawaiting hreason hopen =>
    obtain ⟨ht, -, hclaimed⟩ := h.numbered.of_awaiting? hawaiting
    exact h.complete ht ⟨rfl, rfl, rfl, rfl, fun _ _ hargs => hargs⟩ (by simp [hclaimed]) hopen
      hconsistent
  | finished t => exact h.close (fun _ => rfl) (fun _ => rfl) hconsistent

end Memory

end Reckoner
