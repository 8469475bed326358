import Reckoner.Proofs.Scheduler.Transaction
import Reckoner.Proofs.Store.Memory

/-!
# What a claim does to the store in memory

On rows that belong together, reading a task never fails. It goes through the pending tasks, fills
what operands it can from completed tasks, and stops at the first task whose operands are all known;
`Memory.claimFirst` says so without a transaction.
-/

namespace Reckoner

/-- What work may make of a task: operands are added, and all that identifies the task stays. -/
structure Task.Grows (before after : Task) : Prop where
  id_eq : after.id = before.id
  expressionId_eq : after.expressionId = before.expressionId
  operation_eq : after.operation = before.operation
  dependencies_eq : after.dependencies = before.dependencies
  /-- Operands stay. -/
  args : ∀ slot value, before.args.get slot = some value → after.args.get slot = some value

/-- A task grows into itself. -/
theorem Task.Grows.refl (t : Task) : t.Grows t := ⟨rfl, rfl, rfl, rfl, fun _ _ h => h⟩

/-- Growing twice is growing. -/
theorem Task.Grows.trans {s t u : Task} (h : s.Grows t) (h' : t.Grows u) : s.Grows u :=
  ⟨h'.id_eq.trans h.id_eq, h'.expressionId_eq.trans h.expressionId_eq,
    h'.operation_eq.trans h.operation_eq, h'.dependencies_eq.trans h.dependencies_eq,
    fun slot value hargs => h'.args slot value (h.args slot value hargs)⟩

/-- Filling an empty slot lets a task grow. -/
theorem Task.grows_set {t : Task} {slot : Slot} (h : t.args.get slot = none) (value : Binary64) :
    t.Grows { t with args := t.args.set slot (some value) } := by
  refine ⟨rfl, rfl, rfl, rfl, fun other v hv => ?_⟩
  have hne : other ≠ slot := by
    rintro rfl
    rw [h] at hv
    cases hv
  rw [Operands.get_set_ne _ _ hne]
  exact hv

namespace Memory

variable {m : Memory}

/-! ## Results -/

/-- The result of a completed task. -/
def result? (m : Memory) (id : TaskId) : Option Binary64 :=
  (m.task? id).bind fun t => if t.status = .completed then t.result else none

/-- Looking for a task behind a write. -/
theorem task?_put (m : Memory) (t : Task) (id : TaskId) :
    (m.put t).task? id = (m.task? id).map fun u => if u.id = t.id then t else u := by
  unfold task? put
  rw [List.find?_map]
  congr 2
  funext u
  by_cases hu : u.id = t.id
  · simp [hu]
  · simp [hu]

/-- Work on a task that is not completed leaves all results as they are. -/
theorem result?_put {s t : Task} (h : m.Numbered) (hs : s ∈ m.tasks) (hid : t.id = s.id)
    (hbefore : s.status ≠ .completed) (hafter : t.status ≠ .completed) :
    (m.put t).result? = m.result? := by
  funext id
  unfold result?
  rw [task?_put]
  cases hu : m.task? id with
  | none => rfl
  | some u =>
    obtain ⟨hmem, -⟩ := h.task?_eq_some_iff.mp hu
    by_cases heq : u.id = t.id
    · obtain rfl := h.eq_of_id_eq hmem hs (heq.trans hid)
      simp [heq, hbefore, hafter]
    · simp [heq]

/-! ## Rows that belong together -/

/-- Rows on which a claim cannot fail. -/
structure Joined (m : Memory) : Prop extends m.Numbered where
  /-- A completed task has a result. -/
  settled : ∀ t ∈ m.tasks, t.status = .completed → t.result.isSome = true
  /-- An operand that is missing is the result of a task. -/
  supplied : ∀ t ∈ m.tasks, ∀ slot ∈ t.operation.slots, t.args.get slot = none →
    ∃ d ∈ m.tasks, t.dependencies.get slot = some d.id
  /-- A task belongs to an expression. -/
  owned : ∀ t ∈ m.tasks, ∃ e ∈ m.expressions, e.id = t.expressionId

/-- Work on a task keeps the rows together. -/
theorem Joined.put (h : m.Joined) {s t : Task} (hs : s ∈ m.tasks) (hgrows : s.Grows t)
    (hsettled : t.status = .completed → t.result.isSome = true) : (m.put t).Joined := by
  have hsame : ∀ d ∈ m.tasks, ∃ d' ∈ (m.put t).tasks, d'.id = d.id := by
    intro d hd
    by_cases hid : d.id = t.id
    · exact ⟨t, mem_put_self hd hid, hid.symm⟩
    · exact ⟨d, mem_put_of_ne hd hid, rfl⟩
  refine ⟨h.toNumbered.put t, fun u hu hcompleted => ?_, fun u hu slot hslot hnone => ?_,
    fun u hu => ?_⟩
  · rcases mem_put.mp hu with ⟨rfl, -⟩ | ⟨hu, -⟩
    · exact hsettled hcompleted
    · exact h.settled u hu hcompleted
  · have hbefore : ∃ d ∈ m.tasks, u.dependencies.get slot = some d.id := by
      rcases mem_put.mp hu with ⟨rfl, -⟩ | ⟨hu, -⟩
      · have hempty : s.args.get slot = none := by
          cases harg : s.args.get slot with
          | none => rfl
          | some value =>
            rw [hgrows.args slot value harg] at hnone
            cases hnone
        rw [hgrows.operation_eq] at hslot
        rw [hgrows.dependencies_eq]
        exact h.supplied s hs slot hslot hempty
      · exact h.supplied u hu slot hslot hnone
    obtain ⟨d, hd, hdependency⟩ := hbefore
    obtain ⟨d', hd', hid⟩ := hsame d hd
    exact ⟨d', hd', hid ▸ hdependency⟩
  · rcases mem_put.mp hu with ⟨rfl, -⟩ | ⟨hu, -⟩
    · rw [hgrows.expressionId_eq]
      exact h.owned s hs
    · exact h.owned u hu

/-! ## Filling slots -/

/-- A task with those of its empty slots filled whose operands are known, up to the first that is
not, and whether all are filled. -/
def fill (m : Memory) (task : Task) : List Slot → Task × Bool
  | [] => (task, true)
  | slot :: rest =>
    match task.args.get slot with
    | some _ => m.fill task rest
    | none =>
      match (task.dependencies.get slot).bind m.result? with
      | none => (task, false)
      | some value => m.fill { task with args := task.args.set slot (some value) } rest

/-- Filling goes by the results alone. -/
theorem fill_congr {m n : Memory} (h : m.result? = n.result?) (t : Task) (slots : List Slot) :
    m.fill t slots = n.fill t slots := by
  induction slots generalizing t with
  | nil => rfl
  | cons slot rest ih =>
    unfold fill
    rw [h]
    cases t.args.get slot with
    | some value => exact ih t
    | none =>
      cases (t.dependencies.get slot).bind n.result? with
      | none => rfl
      | some value => exact ih _

/-- What filling leaves alone, and where the operands come from. -/
structure Fills (m : Memory) (before after : Task) : Prop extends before.Grows after where
  status_eq : after.status = before.status
  result_eq : after.result = before.result
  /-- A new operand is the result of a dependency. -/
  source : ∀ slot value, after.args.get slot = some value → before.args.get slot = some value ∨
    ∃ id, before.dependencies.get slot = some id ∧ m.result? id = some value

/-- Slots are filled by the results of dependencies. -/
theorem fills_fill (m : Memory) (t : Task) (slots : List Slot) : m.Fills t (m.fill t slots).1 := by
  induction slots generalizing t with
  | nil => exact ⟨.refl t, rfl, rfl, fun _ _ h => Or.inl h⟩
  | cons slot rest ih =>
    unfold fill
    cases harg : t.args.get slot with
    | some value => exact ih t
    | none =>
      cases hvalue : (t.dependencies.get slot).bind m.result? with
      | none => exact ⟨.refl t, rfl, rfl, fun _ _ h => Or.inl h⟩
      | some value =>
        have hrest := ih { t with args := t.args.set slot (some value) }
        refine ⟨(Task.grows_set harg value).trans hrest.toGrows, hrest.status_eq,
          hrest.result_eq, fun other v hv => ?_⟩
        obtain hset | hsource := hrest.source other v hv
        · by_cases hother : other = slot
          · subst hother
            obtain ⟨id, hid, hresult⟩ := Option.bind_eq_some_iff.mp hvalue
            rw [Operands.get_set_self] at hset
            exact Or.inr ⟨id, hid, hset ▸ hresult⟩
          · rw [Operands.get_set_ne _ _ hother] at hset
            exact Or.inl hset
        · exact Or.inr hsource

/-- When all slots are filled, all are. -/
theorem isSome_of_fill {t : Task} {slots : List Slot} (h : (m.fill t slots).2 = true) :
    ∀ slot ∈ slots, ((m.fill t slots).1.args.get slot).isSome = true := by
  induction slots generalizing t with
  | nil => exact fun _ hslot => nomatch hslot
  | cons slot rest ih =>
    have hkeeps : ∀ u : Task, (u.args.get slot).isSome = true →
        (m.fill u rest).2 = true → ∀ other ∈ slot :: rest,
          ((m.fill u rest).1.args.get other).isSome = true := by
      intro u hu hrest other hother
      rcases List.mem_cons.mp hother with rfl | hother
      · obtain ⟨value, hvalue⟩ := Option.isSome_iff_exists.mp hu
        rw [(m.fills_fill u rest).args other value hvalue]
        rfl
      · exact ih hrest other hother
    unfold fill at h ⊢
    cases harg : t.args.get slot with
    | some value =>
      rw [harg] at h
      exact hkeeps t (by rw [harg]; rfl) h
    | none =>
      rw [harg] at h
      cases hvalue : (t.dependencies.get slot).bind m.result? with
      | none =>
        rw [hvalue] at h
        cases h
      | some value =>
        rw [hvalue] at h
        exact hkeeps _ (by rw [Operands.get_set_self]; rfl) h

/-! ## Claiming -/

/-- The memory in which an expression is no longer pending. -/
def mark (m : Memory) (id : ExpressionId) : Memory :=
  m.revise id fun e => if e.status = .pending then { e with status := .processing } else e

/-- An expression that is there can be marked. -/
theorem answer_mark {e : Expression} {id : ExpressionId} (he : e ∈ m.expressions)
    (hid : e.id = id) : m.answer (.markExpressionProcessing id) = .ok ((), m.mark id) := by
  subst hid
  exact updateExpression_eq he _

/-- Claims the first of these tasks whose operands are all known, and fills what it can on the
way. -/
def claimFirst (m : Memory) : List Task → Option Task × Memory
  | [] => (none, m)
  | task :: rest =>
    let filled := m.fill task task.operation.slots
    if filled.2 then
      let claimed := { filled.1 with status := .processing }
      (some claimed, (m.put claimed).mark claimed.expressionId)
    else (m.put filled.1).claimFirst rest

/-- Claims a task, if one is ready. -/
def claim (m : Memory) : Option Task × Memory :=
  match m.claimFirst (m.tasks.filter (·.status == .pending)) with
  | (some task, after) => (some task, after)
  | (none, _) => (none, m)

/-- The pending tasks are stored, pending and in order. -/
theorem Numbered.pending (h : m.Numbered) :
    (∀ t ∈ m.tasks.filter (·.status == .pending), t ∈ m.tasks ∧ t.status = .pending) ∧
      (m.tasks.filter (·.status == .pending)).Pairwise (·.id < ·.id) :=
  ⟨fun t ht => by simpa using List.mem_filter.mp ht, h.tasks.filter _⟩

/-- Work on the first of some pending tasks leaves those behind it pending. -/
theorem pending_behind {t filled : Task} {rest : List Task}
    (hts : ∀ u ∈ t :: rest, u ∈ m.tasks ∧ u.status = .pending) (hbehind : ∀ u ∈ rest, t.id < u.id)
    (hid : filled.id = t.id) : ∀ u ∈ rest, u ∈ (m.put filled).tasks ∧ u.status = .pending := by
  intro u hu
  obtain ⟨hmem, hstatus⟩ := hts u (List.mem_cons_of_mem _ hu)
  have hne : u.id ≠ filled.id := by
    rw [hid]
    exact (Int.ne_of_lt (hbehind u hu)).symm
  exact ⟨mem_put_of_ne hmem hne, hstatus⟩

section Induction

variable {P : Memory → Prop} {Q : Task → Memory → Prop}

/-- What holds of the task found among others and of the memory then: it is kept while pending tasks
are filled, and the last of them is claimed. -/
theorem claimFirst_induction
    (hfill : ∀ m t, P m → t ∈ m.tasks → t.status = .pending →
      P (m.put (m.fill t t.operation.slots).1))
    (hclaim : ∀ m t claimed, P m → t ∈ m.tasks → t.status = .pending →
      (m.fill t t.operation.slots).2 = true →
      claimed = { (m.fill t t.operation.slots).1 with status := .processing } →
      Q claimed ((m.put claimed).mark claimed.expressionId))
    {ts : List Task} (hts : ∀ t ∈ ts, t ∈ m.tasks ∧ t.status = .pending)
    (hsorted : ts.Pairwise (·.id < ·.id)) (hstart : P m) {claimed : Task} {after : Memory}
    (h : m.claimFirst ts = (some claimed, after)) : Q claimed after := by
  induction ts generalizing m with
  | nil => cases h
  | cons t rest ih =>
    obtain ⟨ht, hpending⟩ := hts t (List.mem_cons_self ..)
    obtain ⟨hbehind, hsorted⟩ := List.pairwise_cons.mp hsorted
    unfold claimFirst at h
    cases hready : (m.fill t t.operation.slots).2 with
    | true =>
      simp only [hready, if_true] at h
      cases h
      exact hclaim m t _ hstart ht hpending hready rfl
    | false =>
      simp only [hready, Bool.false_eq_true, if_false] at h
      have hrest := pending_behind hts hbehind (m.fills_fill t t.operation.slots).id_eq
      exact ih hrest hsorted (hfill m t hstart ht hpending) h

/-- What holds of the task that is claimed and of the memory then. -/
theorem claim_induction
    (hfill : ∀ m t, P m → t ∈ m.tasks → t.status = .pending →
      P (m.put (m.fill t t.operation.slots).1))
    (hclaim : ∀ m t claimed, P m → t ∈ m.tasks → t.status = .pending →
      (m.fill t t.operation.slots).2 = true →
      claimed = { (m.fill t t.operation.slots).1 with status := .processing } →
      Q claimed ((m.put claimed).mark claimed.expressionId))
    (hnumbered : m.Numbered) (hstart : P m) :
    m.claim = (none, m) ∨ ∃ claimed, m.claim.1 = some claimed ∧ Q claimed m.claim.2 := by
  have hfound := @claimFirst_induction m P Q hfill hclaim _ hnumbered.pending.1
    hnumbered.pending.2 hstart
  unfold claim
  generalize m.claimFirst (m.tasks.filter (·.status == .pending)) = found at hfound ⊢
  obtain ⟨claimed, after⟩ := found
  cases claimed with
  | none => exact Or.inl rfl
  | some claimed => exact Or.inr ⟨claimed, rfl, hfound rfl⟩

end Induction

end Memory

namespace Scheduler

open Memory

variable {σ : Type} {b : Backing σ} {m : Memory}

/-- Filling the slots of a pending task never fails. -/
theorem fillSlots_runs (h : m.Joined) {t : Task} (ht : t ∈ m.tasks) (hpending : t.status = .pending)
    {slots : List Slot} (hslots : slots ⊆ t.operation.slots) :
    Runs b (fillSlots t slots) m
      (if (m.fill t slots).2 then some (m.fill t slots).1 else none)
      (m.put (m.fill t slots).1) := by
  induction slots generalizing m t with
  | nil =>
    rw [Memory.fill, Memory.put_self h.toNumbered ht]
    exact Runs.pure _ m
  | cons slot rest ih =>
    have hrest : rest ⊆ t.operation.slots := fun other hother =>
      hslots (List.mem_cons_of_mem _ hother)
    unfold fillSlots Memory.fill
    cases harg : t.args.get slot with
    | some value => exact ih h ht hpending hrest
    | none =>
      obtain ⟨d, hd, hdependency⟩ := h.supplied t ht slot (hslots (List.mem_cons_self ..)) harg
      have hfound : m.task? d.id = some d := h.task?_eq_some_iff.mpr ⟨hd, rfl⟩
      have hget : m.answerKept b.kept (.getTask d.id) = .ok (some d, m) := by rw [← hfound]; rfl
      simp only [hdependency, Option.bind_some]
      refine Runs.bind (Runs.ask (fun _ _ => trivial) hget) ?_
      by_cases hcompleted : d.status = .completed
      · obtain ⟨value, hvalue⟩ := Option.isSome_iff_exists.mp (h.settled d hd hcompleted)
        have hresult : m.result? d.id = some value := by
          simp only [result?, hfound, Option.bind_some, hcompleted, if_true, hvalue]
        have hwrite : m.answer (.resolveOperand t.id slot.number value) =
            .ok ((), m.put { t with args := t.args.set slot (some value) }) := by
          simp only [Memory.answer, Slot.ofNumber?_number]
          exact updateTask_eq h.toNumbered ht _ rfl
        have hkept : Runs b (Scheduler.ask (.resolveOperand t.id slot.number value)) m ()
            (m.put { t with args := t.args.set slot (some value) }) := by
          intro committed s hs
          obtain ⟨hfits, hsame⟩ := b.kept_result hs hd hvalue
          have hquery : (Query.resolveOperand t.id slot.number value).Fits b.fits m := hfits
          have hanswer : m.answer (.resolveOperand t.id slot.number (b.kept value)) =
              .ok ((), m.put { t with args := t.args.set slot (some value) }) := hsame.symm ▸ hwrite
          exact Runs.ask (fun _ _ => hquery) hanswer committed s hs
        have hjoined := h.put ht (Task.grows_set harg value)
          (fun hdone => h.settled t ht hdone)
        have hnext := ih hjoined (mem_put_self ht rfl) hpending hrest
        have hresults : (m.put { t with args := t.args.set slot (some value) }).result? =
            m.result? := by
          refine result?_put h.toNumbered ht rfl ?_ ?_ <;> simp [hpending]
        rw [fill_congr hresults, put_put (m.fills_fill _ rest).id_eq.symm] at hnext
        simp only [hcompleted, hvalue, hresult, ne_eq, not_true_eq_false, if_false]
        exact Runs.bind hkept hnext
      · have hresult : m.result? d.id = none := by
          simp only [result?, hfound, Option.bind_some, hcompleted, if_false]
        simp only [hcompleted, hresult, ne_eq, not_false_eq_true, if_true]
        rw [put_self h.toNumbered ht]
        exact Runs.pure none m

/-- Filling keeps the rows together. -/
theorem Joined.put_fill (h : m.Joined) {t : Task} (ht : t ∈ m.tasks) (slots : List Slot) :
    (m.put (m.fill t slots).1).Joined := by
  have hfills := m.fills_fill t slots
  refine h.put ht hfills.toGrows fun hcompleted => ?_
  rw [hfills.status_eq] at hcompleted
  rw [hfills.result_eq]
  exact h.settled t ht hcompleted

/-- Going through pending tasks never fails. -/
theorem claimFirst_runs (h : m.Joined) {ts : List Task}
    (hts : ∀ t ∈ ts, t ∈ m.tasks ∧ t.status = .pending) (hsorted : ts.Pairwise (·.id < ·.id)) :
    Runs b (Scheduler.claimFirst ts) m (m.claimFirst ts).1 (m.claimFirst ts).2 := by
  induction ts generalizing m with
  | nil => exact Runs.pure none m
  | cons t rest ih =>
    obtain ⟨ht, hpending⟩ := hts t (List.mem_cons_self ..)
    obtain ⟨hbehind, hsorted⟩ := List.pairwise_cons.mp hsorted
    have hfills := m.fills_fill t t.operation.slots
    have hjoined := Joined.put_fill h ht t.operation.slots
    unfold Scheduler.claimFirst Memory.claimFirst
    refine Runs.bind (fillSlots_runs h ht hpending (List.Subset.refl _)) ?_
    generalize hfilled : m.fill t t.operation.slots = filled at hfills hjoined ⊢
    obtain ⟨filled, ready⟩ := filled
    have hstored : filled ∈ (m.put filled).tasks := mem_put_self ht hfills.id_eq.symm
    cases ready with
    | false => exact ih hjoined (pending_behind hts hbehind hfills.id_eq) hsorted
    | true =>
      have hstatus : (m.put filled).answerKept b.kept (.setTaskStatus filled.id .processing) =
          .ok ((), m.put { filled with status := .processing }) := by
        have htwice : (m.put filled).put { filled with status := .processing } =
            m.put { filled with status := .processing } := put_put rfl
        rw [← htwice]
        exact updateTask_eq hjoined.toNumbered hstored _ rfl
      obtain ⟨e, he, hid⟩ := h.owned t ht
      have hmark := @answer_mark (m.put { filled with status := .processing }) e
        filled.expressionId he (hid.trans hfills.expressionId_eq.symm)
      exact Runs.bind (Runs.ask (fun _ _ => trivial) hstatus)
        (Runs.bind (Runs.ask (fun _ _ => ⟨e, he, hid.trans hfills.expressionId_eq.symm⟩) hmark)
          (Runs.pure _ _))

/-- On a store that shows rows which belong together, reading a task never fails, and claims a task
if one is ready. -/
theorem readTask_backed (b : Backing σ) (h : m.Joined) {s : σ} (hs : b.shows s m) :
    ∃ events s', readTask.run (b.store.handle b.now) (.of s) =
      ⟨.ok m.claim.1, events, .of s'⟩ ∧ b.shows s' m.claim.2 := by
  have hpending : Runs b (ask .pendingTasks) m (m.tasks.filter (·.status == .pending)) m :=
    Runs.ask (fun _ _ => trivial) rfl
  have hclaim := @claimFirst_runs σ b m h _ h.toNumbered.pending.1 h.toNumbered.pending.2
  unfold readTask claim
  generalize m.claimFirst (m.tasks.filter (·.status == .pending)) = claimed at hclaim ⊢
  obtain ⟨claimed, after⟩ := claimed
  cases claimed with
  | none =>
    exact Runs.transact_discard (Runs.bind hpending
      (Runs.bind hclaim (Runs.pure (Verdict.discard none) after))) hs
  | some t =>
    exact Runs.transact_keep (Runs.bind hpending
      (Runs.bind hclaim (Runs.pure (Verdict.keep (some t)) after))) hs

/-- Reading a task never fails, and claims a task if one is ready. -/
theorem readTask_run (now : Instant) (h : m.Joined) :
    ∃ events, readTask.run (Memory.store.handle now) (.of m) =
      ⟨.ok m.claim.1, events, .of m.claim.2⟩ := by
  obtain ⟨events, _, hrun, rfl⟩ := readTask_backed (Memory.backing now) h rfl
  exact ⟨events, hrun⟩

end Scheduler

end Reckoner
