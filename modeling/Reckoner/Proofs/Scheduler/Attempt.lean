import Reckoner.Proofs.Scheduler.Atomicity
import Reckoner.Proofs.Scheduler.Effect

/-!
# Calls on any rows

Rows that do not belong together may let a call run into an error; it then changes nothing. If it
does not, reading a task claims the task that `Memory.claim` says. No call gives a number out twice,
and none makes a task pending that was not.
-/

namespace Reckoner

variable {α β δ : Type}

namespace Scheduler

open Memory

/-! ## Actions that may fail -/

/-- What a transaction with this verdict comes to. -/
def Verdict.outcome (before after : δ) : Verdict α → Except SchedulerError α × δ
  | keep value => (.ok value, after)
  | discard value => (.ok value, before)

/-- An action on a copy of the memory that fails or has this value. -/
def Tries (now : Instant) (action : Action α) (m : Memory) (a : α) (after : Memory) : Prop :=
  ∀ committed, let reply := Call.run (Memory.store.handle now) action ⟨committed, m⟩
    (∃ e, reply.answer = .error e) ∨ (reply.answer = .ok a ∧ reply.state.working = after)

namespace Tries

variable {now : Instant} {m middle after : Memory} {a : α} {c : β}

/-- A value. -/
theorem pure (a : α) (m : Memory) : Tries now (Pure.pure a) m a m := fun _ => Or.inr ⟨rfl, rfl⟩

/-- An action that is given up. -/
theorem throw (e : SchedulerError) : Tries now (throw e : Action α) m a after :=
  fun _ => Or.inl ⟨e, rfl⟩

/-- Two actions in a row. -/
theorem bind {action : Action α} {f : α → Action β} (hfirst : Tries now action m a middle)
    (hsecond : Tries now (f a) middle c after) : Tries now (action >>= f) m c after := by
  intro committed
  dsimp only
  rw [run_bind]
  obtain ⟨e, hfailed⟩ | ⟨hanswer, hworking⟩ := hfirst committed
  · simp only [hfailed]
    exact Or.inl ⟨e, rfl⟩
  · simp only [hanswer]
    rw [← hworking] at hsecond
    exact hsecond _

/-- A query, if the memory answers it. -/
theorem ask {q : Query} {answer : q.Answer}
    (h : ∀ reply, m.answer q = .ok reply → reply = (answer, after)) :
    Tries now (Scheduler.ask q) m answer after := by
  intro committed
  dsimp only
  rw [run_ask]
  simp only [Store.handle, Memory.store]
  cases hreply : m.answer q with
  | error e => exact Or.inl ⟨_, rfl⟩
  | ok reply =>
    obtain rfl := h reply hreply
    exact Or.inr ⟨rfl, rfl⟩

/-- A transaction whose body fails changes nothing. -/
theorem transact {body : Action (Verdict α)} {verdict : Verdict α}
    (h : Tries now body m verdict after) (undoFailed : String → Event) (hbody : Guarded body) :
    let reply := (transact undoFailed body).run (Memory.store.handle now) (.of m)
    (reply.answer, reply.state.committed) = verdict.outcome m after ∨
      ((∃ e, reply.answer = .error e) ∧ reply.state.committed = m) := by
  have hends := transact_ends_self Memory.store now undoFailed hbody m
  have hcopy : (∃ e, (onCopy Memory.store now body m).answer = .error e) ∨
      ((onCopy Memory.store now body m).answer = .ok verdict ∧
        (onCopy Memory.store now body m).state.working = after) := h m
  dsimp only at hends
  generalize (Scheduler.transact undoFailed body).run _ _ = reply at hends ⊢
  obtain ⟨answer, events, committed, working⟩ := reply
  cases hends with
  | givenUp e => exact Or.inr ⟨⟨e, rfl⟩, rfl⟩
  | discarded hanswer =>
    rw [hanswer] at hcopy
    obtain ⟨e, hfailed⟩ | ⟨heq, -⟩ := hcopy
    · cases hfailed
    · obtain rfl := Except.ok.inj heq
      exact Or.inl rfl
  | kept hanswer =>
    rw [hanswer] at hcopy
    obtain ⟨e, hfailed⟩ | ⟨heq, hworking⟩ := hcopy
    · cases hfailed
    · obtain rfl := Except.ok.inj heq
      exact Or.inl (Prod.ext rfl hworking)

end Tries

/-! ## Claims -/

variable {now : Instant} {m : Memory}

/-- Writing an operand of a task. -/
theorem resolveOperand_tries (h : m.Numbered) {t : Task} (ht : t ∈ m.tasks) (slot : Slot)
    (value : Binary64) :
    Tries now (Scheduler.ask (.resolveOperand t.id slot.number value)) m ()
      (m.put { t with args := t.args.set slot (some value) }) := by
  refine .ask fun reply hreply => ?_
  simp only [Memory.answer, Slot.ofNumber?_number] at hreply
  rw [updateTask_eq h ht _ rfl] at hreply
  exact (Except.ok.inj hreply).symm

/-- Writing the status of a task. -/
theorem setTaskStatus_tries (h : m.Numbered) {t : Task} (ht : t ∈ m.tasks) (status : TaskStatus) :
    Tries now (Scheduler.ask (.setTaskStatus t.id status)) m () (m.put { t with status }) := by
  refine .ask fun reply hreply => ?_
  have hupdate := updateTask_eq h ht (fun t => { t with status }) rfl
  exact (Except.ok.inj (hreply.symm.trans hupdate)).trans rfl

/-- Marking an expression, if it is there. -/
theorem markExpressionProcessing_tries (m : Memory) (id : ExpressionId) :
    Tries now (Scheduler.ask (.markExpressionProcessing id)) m () (m.mark id) := by
  refine .ask fun reply hreply => ?_
  simp only [Memory.answer, updateExpression] at hreply
  split_ifs at hreply
  exact (Except.ok.inj hreply).symm

/-- Filling the slots of a pending task, if it does not fail. -/
theorem fillSlots_tries (h : m.Numbered) {t : Task} (ht : t ∈ m.tasks)
    (hpending : t.status = .pending) (slots : List Slot) :
    Tries now (fillSlots t slots) m
      (if (m.fill t slots).2 then some (m.fill t slots).1 else none)
      (m.put (m.fill t slots).1) := by
  induction slots generalizing m t with
  | nil =>
    rw [Memory.fill, put_self h ht]
    exact .pure _ m
  | cons slot rest ih =>
    unfold fillSlots Memory.fill
    cases harg : t.args.get slot with
    | some value => exact ih h ht hpending
    | none =>
      cases hdependency : t.dependencies.get slot with
      | none => exact .throw _
      | some id =>
        have hget : Tries now (Scheduler.ask (.getTask id)) m (m.task? id) m :=
          .ask fun _ hreply => (Except.ok.inj hreply).symm
        refine .bind hget ?_
        cases hfound : m.task? id with
        | none => exact .throw _
        | some d =>
          by_cases hcompleted : d.status = .completed
          · simp only [hcompleted, ne_eq, not_true_eq_false, if_false]
            cases hvalue : d.result with
            | none => exact .throw _
            | some value =>
              let filled : Task := { t with args := t.args.set slot (some value) }
              have hresult : m.result? id = some value := by
                simp only [result?, hfound, Option.bind_some, hcompleted, if_true, hvalue]
              have hwrite := @resolveOperand_tries now m h t ht slot value
              have hnext := ih (h.put filled) (mem_put_self ht rfl) hpending
              have hresults : (m.put filled).result? = m.result? := by
                refine result?_put h ht rfl ?_ ?_ <;> simp [filled, hpending]
              rw [fill_congr hresults, put_put (m.fills_fill _ rest).id_eq.symm] at hnext
              simp only [Option.bind_some, hresult]
              exact .bind hwrite hnext
          · have hresult : m.result? id = none := by
              simp only [result?, hfound, Option.bind_some, hcompleted, if_false]
            simp only [Option.bind_some, hcompleted, hresult, ne_eq, not_false_eq_true, if_true]
            rw [put_self h ht]
            exact .pure none m

/-- Going through pending tasks, if it does not fail. -/
theorem claimFirst_tries (h : m.Numbered) {ts : List Task}
    (hts : ∀ t ∈ ts, t ∈ m.tasks ∧ t.status = .pending) (hsorted : ts.Pairwise (·.id < ·.id)) :
    Tries now (Scheduler.claimFirst ts) m (m.claimFirst ts).1 (m.claimFirst ts).2 := by
  induction ts generalizing m with
  | nil => exact .pure none m
  | cons t rest ih =>
    obtain ⟨ht, hpending⟩ := hts t (List.mem_cons_self ..)
    obtain ⟨hbehind, hsorted⟩ := List.pairwise_cons.mp hsorted
    have hfills := m.fills_fill t t.operation.slots
    unfold Scheduler.claimFirst Memory.claimFirst
    refine .bind (fillSlots_tries h ht hpending _) ?_
    generalize m.fill t t.operation.slots = filling at hfills ⊢
    obtain ⟨filled, ready⟩ := filling
    have hnumbered : (m.put filled).Numbered := h.put filled
    have hstored : filled ∈ (m.put filled).tasks := mem_put_self ht hfills.id_eq.symm
    cases ready with
    | false => exact ih hnumbered (pending_behind hts hbehind hfills.id_eq) hsorted
    | true =>
      have hstatus := @setTaskStatus_tries now _ hnumbered _ hstored .processing
      have htwice : (m.put filled).put { filled with status := .processing } =
          m.put { filled with status := .processing } := put_put rfl
      rw [htwice] at hstatus
      exact .bind hstatus (.bind (markExpressionProcessing_tries _ _) (.pure _ _))

/-- What a body decides on, if it does not fail. -/
theorem claimReady_tries (h : m.Numbered) :
    ∃ verdict after, Tries now claimReady m verdict after ∧
      verdict.outcome m after = (.ok m.claim.1, m.claim.2) := by
  have hpending : Tries now (ask .pendingTasks) m (m.tasks.filter (·.status == .pending)) m :=
    .ask fun _ hreply => (Except.ok.inj hreply).symm
  have hfirst := @claimFirst_tries now m h _ h.pending.1 h.pending.2
  unfold claim
  generalize m.claimFirst (m.tasks.filter (·.status == .pending)) = claimed at hfirst ⊢
  obtain ⟨claimed | task, after⟩ := claimed
  · exact ⟨.discard none, after, .bind hpending (.bind hfirst (.pure _ _)), rfl⟩
  · exact ⟨.keep (some task), after, .bind hpending (.bind hfirst (.pure _ _)), rfl⟩

/-- Reading a task claims one, if one is ready, or fails and changes nothing. -/
theorem readTask_attempt (now : Instant) (h : m.Numbered) :
    let reply := readTask.run (Memory.store.handle now) (.of m)
    (reply.answer, reply.state.committed) = (.ok m.claim.1, m.claim.2) ∨
      ((∃ e, reply.answer = .error e) ∧ reply.state.committed = m) := by
  obtain ⟨verdict, after, htries, houtcome⟩ := @claimReady_tries now m h
  rw [← houtcome]
  exact htries.transact .claimRollbackFailed guarded_claimReady

end Scheduler

/-! ## Writes -/

namespace Memory

variable {m n : Memory}

/-- What a query may write. -/
inductive Writes (m : Memory) : Memory → Prop
  | nothing : Writes m m
  | task {t u : Task} (ht : t ∈ m.tasks) (hid : u.id = t.id)
      (hstatus : t.status ≠ .pending → u.status ≠ .pending) : Writes m (m.put u)
  | expression (id : ExpressionId) {f : Expression → Expression} (hf : ∀ e, (f e).id = e.id) :
      Writes m (m.revise id f)
  | tasks (id : ExpressionId) : Writes m (m.drop id)

/-- A change of a task is a write of the changed task. -/
theorem Writes.of_updateTask (h : m.Numbered) {id : TaskId} {f : Task → Task} {u : Unit}
    (hupdate : m.updateTask id f = .ok (u, n)) (hid : ∀ t, (f t).id = t.id)
    (hstatus : ∀ t : Task, t.status ≠ .pending → (f t).status ≠ .pending) : m.Writes n := by
  by_cases hany : m.tasks.any (·.id == id) = true
  · obtain ⟨t, ht, heq⟩ := List.any_eq_true.mp hany
    obtain rfl : t.id = id := by simpa using heq
    rw [updateTask_eq h ht f (hid t)] at hupdate
    cases hupdate
    exact .task ht (hid t) (hstatus t)
  · rw [updateTask, if_neg hany] at hupdate
    cases hupdate

/-- A change of an expression. -/
theorem Writes.of_updateExpression {id : ExpressionId} {f : Expression → Expression} {u : Unit}
    (hupdate : m.updateExpression id f = .ok (u, n)) (hid : ∀ e, (f e).id = e.id) :
    m.Writes n := by
  unfold updateExpression at hupdate
  split_ifs at hupdate
  cases hupdate
  exact .expression id hid

/-- A query that is answered writes a row with the number of an old one, or deletes some. -/
theorem Writes.of_answer (h : m.Numbered) {q : Query} (hforward : q.Forward) {a : q.Answer}
    (hanswer : m.answer q = .ok (a, n)) : m.Writes n := by
  cases q with
  | pendingTasks | getTask | expressionTasks | expressionStatus =>
    cases hanswer
    exact .nothing
  | resolveOperand id slot value =>
    simp only [Memory.answer] at hanswer
    cases hslot : Slot.ofNumber? slot with
    | none =>
      rw [hslot] at hanswer
      cases hanswer
    | some slot =>
      rw [hslot] at hanswer
      exact .of_updateTask h hanswer (fun _ => rfl) fun _ hstatus => hstatus
  | setTaskStatus id status => exact .of_updateTask h hanswer (fun _ => rfl) fun _ _ => hforward
  | completeTask id value => exact .of_updateTask h hanswer (fun _ => rfl) fun _ _ => by simp
  | deleteExpressionTasks id =>
    cases hanswer
    exact .tasks id
  | markExpressionProcessing id =>
    refine .of_updateExpression hanswer fun e => ?_
    split_ifs <;> rfl
  | completeExpression id value => exact .of_updateExpression hanswer fun _ => rfl
  | failExpression id error => exact .of_updateExpression hanswer fun _ => rfl

/-- A write keeps the order. -/
theorem Numbered.writes (h : m.Numbered) (hwrites : m.Writes n) : n.Numbered := by
  cases hwrites with
  | nothing => exact h
  | task => exact h.put _
  | expression id hf => exact h.revise id hf
  | tasks id => exact h.drop id

/-- A number that has been given out, and of which no task is pending. -/
structure Spent (m : Memory) (id : TaskId) : Prop where
  le : id ≤ m.lastTask
  not_pending : ∀ t ∈ m.tasks, t.id = id → t.status ≠ .pending

/-- A write makes no task pending. -/
theorem Spent.writes {id : TaskId} (h : m.Spent id) (hwrites : m.Writes n) : n.Spent id := by
  cases hwrites with
  | nothing => exact h
  | task ht hid hstatus =>
    refine ⟨h.le, fun v hv hvid => ?_⟩
    rcases mem_put.mp hv with ⟨rfl, -⟩ | ⟨hv, -⟩
    · exact hstatus (h.not_pending _ ht (hid.symm.trans hvid))
    · exact h.not_pending v hv hvid
  | expression => exact ⟨h.le, h.not_pending⟩
  | tasks => exact ⟨h.le, fun v hv hvid => h.not_pending v (mem_drop.mp hv).1 hvid⟩

/-- New tasks have new numbers. -/
theorem Spent.create {id : TaskId} (h : m.Spent id) (now : Instant) (userId : UserId)
    (formula : String) (graph : TaskGraph) : (m.create now userId formula graph).2.Spent id := by
  refine ⟨Int.le_trans h.le (Int.le_add_of_nonneg_right (Int.natCast_nonneg _)),
    fun t ht hid => ?_⟩
  rcases List.mem_append.mp ht with ht | ht
  · exact h.not_pending t ht hid
  · have hnew := (Task.bounds_ofNodes ht).1
    rw [hid] at hnew
    exact absurd h.le (Int.not_le_of_gt hnew)

/-- A task that is claimed is pending no more. -/
theorem Spent.of_claims (hn : n.Numbered) {t : Task} (hclaims : m.Claims t n) :
    n.Spent t.id := by
  refine ⟨hn.task_le t hclaims.mem, fun u hu hid => ?_⟩
  rw [hn.eq_of_id_eq hu hclaims.mem hid, hclaims.status_eq]
  simp

end Memory

namespace Scheduler

open Memory

/-- What all writes keep is kept by a transaction on rows in order. -/
theorem transact_keeps (now : Instant) {m : Memory} {P : Memory → Prop}
    (hwrites : ∀ m n, Memory.Writes m n → P m → P n) (undoFailed : String → Event)
    {body : Action (Verdict α)} (hbody : Guarded body) (hm : m.Numbered) (hp : P m) :
    let after := ((transact undoFailed body).run (Memory.store.handle now) (.of m)).state.committed
    after.Numbered ∧ P after := by
  have hends := transact_ends_self Memory.store now undoFailed hbody m
  have hcopy : (onCopy Memory.store now body m).state.working.Numbered ∧
      P (onCopy Memory.store now body m).state.working := by
    refine hbody.keeps (P := fun n => n.Numbered ∧ P n) ?_ (.of m) ⟨hm, hp⟩
    rintro q answer d after hforward hanswer ⟨hd, hpd⟩
    have hwrite := Writes.of_answer hd hforward hanswer
    exact ⟨hd.writes hwrite, hwrites d after hwrite hpd⟩
  dsimp only at hends
  generalize (transact undoFailed body).run _ _ = reply at hends ⊢
  obtain ⟨answer, events, committed, working⟩ := reply
  cases hends with
  | givenUp _ => exact ⟨hm, hp⟩
  | discarded _ => exact ⟨hm, hp⟩
  | kept _ => exact hcopy

end Scheduler

end Reckoner
