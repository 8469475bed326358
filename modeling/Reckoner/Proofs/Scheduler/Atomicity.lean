import Reckoner.Proofs.Scheduler.Body
import Reckoner.Proofs.Scheduler.Commutation
import Reckoner.Store.Fault

/-!
# All or nothing

Any request to the store may fail, and a transaction that cannot be closed is lost. Whatever fails,
a scheduler call keeps all writes of its body or none: it keeps them if it claims a task or applies
a report and says so, and nothing has failed then. Nobody sees the data in between.
-/

namespace Reckoner

variable {α δ σ : Type}

/-! ## Stores that fail -/

/-- A store of which any request may fail. A request is met as `handle` does, or answered by an
error; an error leaves the data as they were, whatever becomes of the copy of an open
transaction. -/
structure Falters (handle : Handler (Transacted δ)) (faulty : Handler σ)
    (view : σ → Transacted δ) : Prop where
  met_or_failed (request : Request) (s : σ) :
    ((faulty request s).1 = (handle request (view s)).1 ∧
      view (faulty request s).2 = (handle request (view s)).2) ∨
    ((∃ e, (faulty request s).1 = .error e) ∧
      (view (faulty request s).2).committed = (view s).committed)

/-- Nothing need fail. -/
theorem Falters.refl (handle : Handler (Transacted δ)) : Falters handle handle id :=
  ⟨fun _ _ => Or.inl ⟨rfl, rfl⟩⟩

/-- Faults to come are failures. -/
theorem Falters.withFaults (handle : Handler (Transacted δ)) :
    Falters handle handle.withFaults (·.state) := by
  refine ⟨fun request s => ?_⟩
  unfold Handler.withFaults
  obtain ⟨struck, faults⟩ := Fault.strike request.method s.faults
  cases struck with
  | none => exact Or.inl ⟨rfl, rfl⟩
  | some e => exact Or.inr ⟨⟨e, rfl⟩, rfl⟩

namespace Falters

variable {store : Store δ} {now : Instant} {faulty : Handler σ} {view : σ → Transacted δ}

/-- Only a commit changes the data, whatever fails. -/
theorem committed_eq (h : Falters (store.handle now) faulty view) (request : Request)
    (hne : request ≠ .commit) (s : σ) :
    (view (faulty request s).2).committed = (view s).committed := by
  obtain ⟨-, hview⟩ | ⟨-, hsame⟩ := h.met_or_failed request s
  · rw [hview, store.committed_handle now request hne]
  · exact hsame

end Falters

/-! ## Calls on such stores -/

namespace Call

/-- The states that a run passes through, one behind each request. -/
def passes (handle : Handler σ) : Call α → σ → List σ
  | done _, _ => []
  | note _ rest, s => rest.passes handle s
  | ask request next, s =>
    (handle request s).2 :: (next (handle request s).1).passes handle (handle request s).2

/-- Whoever looks at the data during a run sees them as they were or as they will be. -/
def Whole (handle : Handler σ) (view : σ → Transacted δ) (call : Call α) (s : σ) : Prop :=
  ∀ seen ∈ call.passes handle s, (view seen).committed = (view s).committed ∨
    (view seen).committed = (view (call.run handle s).state).committed

end Call

namespace Scheduler

variable {store : Store δ} {now : Instant} {faulty : Handler σ} {view : σ → Transacted δ}

/-- What a body makes of a copy of the data when nothing fails. -/
def onCopy (store : Store δ) (now : Instant) (body : Action α) (data : δ) :
    Reply (Except SchedulerError α) (Transacted δ) :=
  Call.run (store.handle now) body (.of data)

/-- A body leaves the data alone, and it is given up unless nothing fails. -/
theorem Guarded.run_cases {body : Action α} (hbody : Guarded body)
    (h : Falters (store.handle now) faulty view) (s : σ) :
    (view (Call.run faulty body s).state).committed = (view s).committed ∧
      ((∃ e, (Call.run faulty body s).answer = .error e) ∨
        ((Call.run faulty body s).answer = (Call.run (store.handle now) body (view s)).answer ∧
          view (Call.run faulty body s).state =
            (Call.run (store.handle now) body (view s)).state)) := by
  induction hbody generalizing s with
  | done result => exact ⟨rfl, Or.inr ⟨rfl, rfl⟩⟩
  | note event _ ih => exact ih s
  | ask q _ _ herror ih =>
    simp only [Call.run]
    have hdata := h.committed_eq (.query q) (by simp) s
    obtain ⟨hanswer, hview⟩ | ⟨⟨e, hfailed⟩, -⟩ := h.met_or_failed (.query q) s
    · rw [← hanswer, ← hview, ← hdata]
      cases (faulty (.query q) s).1 with
      | ok answer => exact ih answer _
      | error e =>
        rw [herror]
        exact ⟨rfl, Or.inl ⟨_, rfl⟩⟩
    · rw [hfailed, herror, ← hdata]
      exact ⟨rfl, Or.inl ⟨_, rfl⟩⟩

/-- What every query keeps of the data is kept of the copy. -/
theorem Guarded.keeps {body : Action α} (hbody : Guarded body) {P : δ → Prop}
    (hkeeps : ∀ (q : Query) (answer : q.Answer) (d after : δ), q.Forward →
      store.answer now q d = .ok (answer, after) → P d → P after)
    (s : Transacted δ) (hs : P s.working) :
    P (Call.run (store.handle now) body s).state.working := by
  induction hbody generalizing s with
  | done result => exact hs
  | note event _ ih => exact ih s hs
  | ask q hforward _ herror ih =>
    simp only [Call.run, Store.handle]
    cases hanswer : store.answer now q s.working with
    | error e =>
      simp only [herror]
      exact hs
    | ok reply => exact ih reply.1 _ (hkeeps q reply.1 _ reply.2 hforward hanswer hs)

/-- Nothing is to be seen of a body while it runs. -/
theorem Guarded.of_mem_passes {body : Action α} (hbody : Guarded body)
    (h : Falters (store.handle now) faulty view) {f : Except SchedulerError α → Call β} {s seen : σ}
    (hseen : seen ∈ (Call.bind body f).passes faulty s) :
    (view seen).committed = (view s).committed ∨
      seen ∈ (f (Call.run faulty body s).answer).passes faulty (Call.run faulty body s).state := by
  induction hbody generalizing s with
  | done result => exact Or.inr hseen
  | note event _ ih => exact ih hseen
  | ask q _ _ herror ih =>
    have hdata := h.committed_eq (.query q) (by simp) s
    simp only [Call.bind, Call.passes, List.mem_cons] at hseen
    simp only [Call.run]
    obtain rfl | hseen := hseen
    · exact Or.inl hdata
    · rw [← hdata]
      cases hanswer : (faulty (.query q) s).1 with
      | ok answer =>
        rw [hanswer] at hseen
        exact ih answer hseen
      | error e =>
        rw [hanswer, herror] at hseen
        rw [herror]
        exact Or.inr hseen

/-! ## The end of a transaction -/

/-- How a transaction ends whose body comes to `copy` when nothing fails: it is given up, or closed
without its writes, or closed with all of them. -/
inductive Ends (before : δ) (copy : Reply (Except SchedulerError (Verdict α)) (Transacted δ)) :
    Except SchedulerError α → δ → Prop
  | givenUp (e : SchedulerError) : Ends before copy (.error e) before
  | discarded {value : α} (h : copy.answer = .ok (.discard value)) :
      Ends before copy (.ok value) before
  | kept {value : α} (h : copy.answer = .ok (.keep value)) :
      Ends before copy (.ok value) copy.state.working

/-- Closing a transaction is one request. -/
theorem passes_settle (undoFailed : String → Event) (verdict : Except SchedulerError (Verdict α))
    (s : σ) :
    (settle undoFailed verdict).passes faulty s =
      [((settle undoFailed verdict).run faulty s).state] := by
  rcases verdict with e | ⟨value | value⟩
  · simp only [settle, Call.passes, Call.run]
    cases (faulty .rollback s).1 <;> rfl
  · simp only [settle, close, Call.passes, Call.run]
    cases (faulty .commit s).1 <;> rfl
  · simp only [settle, close, Call.passes, Call.run]
    cases (faulty .rollback s).1 <;> rfl

/-- A transaction is closed as its body has ended. -/
theorem settle_ends (h : Falters (store.handle now) faulty view) (undoFailed : String → Event)
    {verdict : Except SchedulerError (Verdict α)}
    {copy : Reply (Except SchedulerError (Verdict α)) (Transacted δ)} {s : σ}
    (hbody : (∃ e, verdict = .error e) ∨ (verdict = copy.answer ∧ view s = copy.state)) :
    Ends (view s).committed copy ((settle undoFailed verdict).run faulty s).answer
      (view ((settle undoFailed verdict).run faulty s).state).committed := by
  have hundone := h.committed_eq .rollback (by simp) s
  have hmade : ∀ made, verdict = .ok made → verdict = copy.answer ∧ view s = copy.state := by
    rintro made rfl
    refine hbody.resolve_left ?_
    rintro ⟨e, hfailed⟩
    cases hfailed
  rcases verdict with e | ⟨value | value⟩
  · simp only [settle, Call.run]
    rw [← hundone]
    cases (faulty .rollback s).1 with
    | ok _ => exact .givenUp e
    | error _ => exact .givenUp e
  · obtain ⟨hanswer, hstate⟩ := hmade _ rfl
    simp only [settle, run_close]
    obtain ⟨hclosed, hview⟩ | ⟨⟨e, hfailed⟩, hsame⟩ := h.met_or_failed .commit s
    · have hkept : (view (faulty .commit s).2).committed = copy.state.working := by
        rw [hview, hstate]
        rfl
      rw [hclosed, hkept]
      exact .kept hanswer.symm
    · rw [hfailed, ← hsame]
      exact .givenUp _
  · obtain ⟨hanswer, -⟩ := hmade _ rfl
    simp only [settle, run_close]
    rw [← hundone]
    cases (faulty .rollback s).1 with
    | ok _ => exact .discarded hanswer.symm
    | error _ => exact .givenUp _

/-- Whatever fails, a transaction ends in one of the three ways, and whoever looks at the data
meanwhile sees them as they were or as they will be. -/
theorem transact_ends (h : Falters (store.handle now) faulty view) (undoFailed : String → Event)
    {body : Action (Verdict α)} (hbody : Guarded body) (s : σ) :
    Ends (view s).committed (onCopy store now body (view s).committed)
        ((transact undoFailed body).run faulty s).answer
        (view ((transact undoFailed body).run faulty s).state).committed ∧
      (transact undoFailed body).Whole faulty view s := by
  have hopened := h.committed_eq .begin (by simp) s
  unfold Call.Whole
  rw [transact_eq]
  simp only [Call.run, Call.passes, List.mem_cons, forall_eq_or_imp]
  cases hbegin : (faulty .begin s).1 with
  | error e => exact ⟨hopened ▸ .givenUp _, Or.inl hopened, by simp [Call.passes]⟩
  | ok _ =>
    have hview : view (faulty .begin s).2 = .of (view s).committed := by
      obtain ⟨hanswer, hview⟩ | ⟨⟨e, hfailed⟩, -⟩ := h.met_or_failed .begin s
      · rw [hview]
        rw [hbegin] at hanswer
        simp only [Store.handle] at hanswer ⊢
        cases hadmits : store.admits (view s).committed with
        | ok _ => rfl
        | error e =>
          rw [hadmits] at hanswer
          cases hanswer
      · rw [hbegin] at hfailed
        cases hfailed
    obtain ⟨hdata, hcopy⟩ := hbody.run_cases h (faulty .begin s).2
    rw [hview] at hcopy
    dsimp only
    rw [Call.run_bind]
    refine ⟨?_, Or.inl hopened, fun seen hseen => ?_⟩
    · have hends := settle_ends h undoFailed hcopy
      rw [hdata, hopened] at hends
      exact hends
    · obtain hsame | hseen := hbody.of_mem_passes h hseen
      · exact Or.inl (hsame.trans hopened)
      · rw [passes_settle, List.mem_singleton] at hseen
        exact Or.inr (congrArg (fun seen => (view seen).committed) hseen)

/-- On the store itself a transaction ends in one of these ways as well. -/
theorem transact_ends_self (store : Store δ) (now : Instant) (undoFailed : String → Event)
    {body : Action (Verdict α)} (hbody : Guarded body) (data : δ) :
    let reply := (transact undoFailed body).run (store.handle now) (.of data)
    Ends data (onCopy store now body data) reply.answer reply.state.committed :=
  (transact_ends (.refl (store.handle now)) undoFailed hbody (.of data)).1

/-! ## What the two calls keep -/

/-- A task is claimed if and only if the writes of the claim are kept. -/
theorem claimReady_verdict (handle : Handler σ) (s : σ) :
    match (Call.run handle claimReady s).answer with
    | .ok (.keep claimed) => claimed.isSome = true
    | .ok (.discard claimed) => claimed = none
    | .error _ => True := by
  unfold claimReady
  rw [run_bind]
  dsimp only
  cases (Call.run handle (ask .pendingTasks) s).answer with
  | error e => trivial
  | ok tasks =>
    dsimp only
    rw [run_bind]
    dsimp only
    cases (Call.run handle (claimFirst tasks) _).answer with
    | error e => trivial
    | ok claimed => cases claimed <;> rfl

/-- A report that a store has no use for: its task is not there, or is not claimed, or its
expression is finished. -/
inductive Stale (store : Store δ) (now : Instant) (report : Report) (data : δ) : Prop
  | unknown {found : δ} (h : store.answer now (.getTask report.id) data = .ok (none, found))
  | unawaited {task : Task} {status : Option ExpressionStatus} {found after : δ}
      (h : store.answer now (.getTask report.id) data = .ok (some task, found))
      (hstatus : store.answer now (.expressionStatus task.expressionId) found =
        .ok (status, after))
      (hidle : status.all (·.isTerminal) = true ∨ task.status ≠ .processing)

/-- A report is discarded if and only if it is stale. -/
theorem judge_verdict (store : Store δ) (now : Instant) (report : Report) (data : δ) :
    match (onCopy store now (judge report) data).answer with
    | .ok (.keep _) => ¬Stale store now report data
    | .ok (.discard _) => Stale store now report data
    | .error _ => True := by
  unfold onCopy judge
  rw [run_bind, run_ask]
  simp only [Store.handle, Transacted.of]
  cases hfound : store.answer now (.getTask report.id) data with
  | error e => trivial
  | ok found =>
    obtain ⟨found, afterFound⟩ := found
    cases found with
    | none => exact .unknown hfound
    | some task =>
      dsimp only [Except.mapError]
      rw [run_bind, run_ask]
      simp only [Store.handle]
      cases hstatus : store.answer now (.expressionStatus task.expressionId) afterFound with
      | error e => trivial
      | ok status =>
        obtain ⟨status, afterStatus⟩ := status
        dsimp only [Except.mapError]
        split_ifs with hterminal hclaimed
        · exact .unawaited hfound hstatus (Or.inl hterminal)
        · exact .unawaited hfound hstatus (Or.inr hclaimed)
        · rw [run_bind]
          dsimp only
          cases (Call.run (store.handle now) (applyReport task report) _).answer with
          | error e => trivial
          | ok _ =>
            rintro (⟨hunknown⟩ | ⟨hknown, hknownStatus, hidle⟩)
            · rw [hfound] at hunknown
              cases hunknown
            · rw [hfound] at hknown
              cases hknown
              rw [hstatus] at hknownStatus
              cases hknownStatus
              exact hidle.elim hterminal hclaimed

/-- What a reading keeps: all that its body writes if it claims a task, and nothing otherwise. -/
def KeepsClaim (store : Store δ) (now : Instant) (before : δ) :
    Except SchedulerError (Option Task) → δ → Prop
  | .ok (some task), after =>
    let copy := onCopy store now claimReady before
    copy.answer = .ok (.keep (some task)) ∧ after = copy.state.working
  | .ok none, after | .error _, after => after = before

/-- What a report keeps: all that its body writes if it is due, and nothing if it is stale or
fails. -/
def KeepsReport (store : Store δ) (now : Instant) (report : Report) (before : δ) :
    Except SchedulerError Unit → δ → Prop
  | .ok (), after =>
    let copy := onCopy store now (judge report) before
    (Stale store now report before → after = before) ∧
      (¬Stale store now report before → copy.answer = .ok (.keep ()) ∧ after = copy.state.working)
  | .error _, after => after = before

/-- A reading ends so. -/
theorem Ends.keepsClaim {before after : δ} {answer : Except SchedulerError (Option Task)}
    (h : Ends before (onCopy store now claimReady before) answer after) :
    KeepsClaim store now before answer after := by
  have hverdict := claimReady_verdict (store.handle now) (.of before)
  change match (onCopy store now claimReady before).answer with
    | .ok (.keep claimed) => claimed.isSome = true
    | .ok (.discard claimed) => claimed = none
    | .error _ => True at hverdict
  cases h with
  | givenUp e => rfl
  | discarded h =>
    rw [h] at hverdict
    obtain rfl := hverdict
    rfl
  | kept h =>
    rw [h] at hverdict
    obtain ⟨task, rfl⟩ := Option.isSome_iff_exists.mp hverdict
    exact ⟨h, rfl⟩

/-- A report ends so. -/
theorem Ends.keepsReport {report : Report} {before after : δ} {answer : Except SchedulerError Unit}
    (h : Ends before (onCopy store now (judge report) before) answer after) :
    KeepsReport store now report before answer after := by
  have hverdict := judge_verdict store now report before
  cases h with
  | givenUp e => rfl
  | discarded h =>
    rw [h] at hverdict
    exact ⟨fun _ => rfl, fun hdue => absurd hverdict hdue⟩
  | kept h =>
    rw [h] at hverdict
    exact ⟨fun hstale => absurd hstale hverdict, fun _ => ⟨h, rfl⟩⟩

/-- **A call is atomic, whatever fails.** Any request of the transaction may fail, also the one that
closes it. A call that ends in an error, a reading that claims nothing and a report that is stale
leave the data as they were; a reading that claims a task and a report that is due keep all that
their bodies write. Nobody sees anything in between. -/
theorem atomic_under_faults (h : Falters (store.handle now) faulty view) (s : σ) :
    let before := (view s).committed
    let read := readTask.run faulty s
    (KeepsClaim store now before read.answer (view read.state).committed ∧
        readTask.Whole faulty view s) ∧
      ∀ report : Report,
        let reply := (completeTask report).run faulty s
        KeepsReport store now report before reply.answer (view reply.state).committed ∧
          (completeTask report).Whole faulty view s := by
  refine ⟨?_, fun report => ?_⟩
  · obtain ⟨hends, hwhole⟩ := transact_ends h _ guarded_claimReady s
    exact ⟨hends.keepsClaim, hwhole⟩
  · obtain ⟨hends, hwhole⟩ := transact_ends h _ (guarded_judge report) s
    exact ⟨hends.keepsReport, hwhole⟩

/-- A claim whose last write fails, and whose transaction cannot be rolled back either. -/
def broken : Faulty (Transacted Memory) where
  state := .of (Course.twins.memory 1)
  faults := [⟨.markExpressionProcessing, .query "disk full", 1⟩, ⟨.rollback, .connection, 1⟩]

/-- The claim ends in the first error, and the data are as they were. -/
theorem atomic_under_faults_broken :
    let reply := readTask.run (Memory.store.handle ⟨0, 0⟩).withFaults broken
    reply.answer = .error (.storage (.query "disk full")) ∧ reply.state.faults.length = 0 ∧
      reply.state.state.working ≠ Course.twins.memory 1 ∧
      reply.state.state.committed = Course.twins.memory 1 := by
  intro reply
  have hanswer : reply.answer = .error (.storage (.query "disk full")) := by decide +kernel
  have hkeeps := (atomic_under_faults (.withFaults (Memory.store.handle ⟨0, 0⟩)) broken).1.1
  have hsame : reply.state.state.committed = broken.state.committed := by
    change KeepsClaim _ _ _ reply.answer _ at hkeeps
    rw [hanswer] at hkeeps
    exact hkeeps
  exact ⟨hanswer, by decide +kernel, by decide +kernel, hsame⟩

end Scheduler

end Reckoner
