import Mathlib.Data.Nat.Init
import Reckoner.Proofs.Worker.Turn

/-!
# Delivering a report

A worker that has taken an assignment computes it and calls once to submit the report. If that call
fails, the worker waits for the backoff, drops the report and asks for the next assignment. So a
worker never asks again before its report is delivered exactly if every failed submission is
followed by the cancellation before the backoff is over.
-/

namespace Reckoner

deriving instance DecidableEq for Transacted

namespace Shift

variable {σ : Type} (shift : Shift σ)

/-! ## What happens at a turn -/

/-- At this turn an assignment has arrived, and the worker takes it up. -/
def Receives (n : Nat) (a : Assignment) : Prop :=
  (shift.worker n).phase = .fetching (.ok (some a)) ∧
    (shift.worker n).wake < shift.circumstances.cancelAt

/-- At this turn the worker calls for an assignment. -/
def Fetches (n : Nat) : Prop := ∃ fetched, Deed.fetch fetched ∈ shift.deeds n

/-- At this turn the outcome of a submission of a report is there. -/
def Answered (n : Nat) (report : Report) (outcome : Submitted) : Prop :=
  (shift.worker n).phase = .submitting report outcome

/-- Once an assignment has arrived, the worker does not call for another one until a submission of
the report on it has succeeded. -/
def KeepsReports : Prop :=
  ∀ n a, shift.Receives n a → ∀ m > n, shift.Fetches m →
    ∃ k > n, k ≤ m ∧ shift.Answered k (Report.ofAssignment shift.circumstances.arith a) (.ok ())

/-! ## From one turn to the next -/

variable {shift} {n : Nat} {report : Report}

/-- A worker calls for an assignment when it is free, and not once it is cancelled. -/
theorem fetches_iff : shift.Fetches n ↔ (shift.worker n).isFree = true ∧
    (shift.worker n).wake < shift.circumstances.cancelAt := by
  constructor
  · rintro ⟨fetched, hdeed⟩
    exact (shift.turn n).of_fetch_mem hdeed
  · rintro ⟨hfree, hrunning⟩
    unfold Fetches deeds
    rw [Worker.advance_of_running hfree hrunning]
    exact ⟨_, List.mem_append_right _ (List.mem_singleton_self _)⟩

/-- The turn after an assignment has arrived submits the report on it. -/
theorem Receives.computing {a : Assignment} (h : shift.Receives n a) :
    (shift.worker (n + 1)).phase =
      .computing (Report.ofAssignment shift.circumstances.arith a) := by
  rw [worker_succ, Worker.advance_of_fetching h.1 h.2, Worker.takeOutcome_some]

/-- After the submission of a computed report its outcome is there. -/
theorem exists_answered (h : (shift.worker n).phase = .computing report) :
    ∃ outcome, shift.Answered (n + 1) report outcome := by
  refine ⟨(shift.link.submit report (shift.before n).2).1.1, ?_⟩
  rw [Answered, worker_succ, Worker.advance_of_computing h]

/-- A submission is of the report on an assignment that has arrived two turns before. -/
theorem Answered.exists_receives {outcome : Submitted}
    (h : shift.Answered n report outcome) :
    ∃ k a, n = k + 2 ∧ shift.Receives k a ∧
      report = Report.ofAssignment shift.circumstances.arith a := by
  cases n with
  | zero => cases h
  | succ n =>
    have hcomputing := (shift.turn n).computing_of_submitting h
    cases n with
    | zero => cases hcomputing
    | succ n =>
      obtain ⟨a, hphase, hrunning, hreport⟩ := (shift.turn n).fetching_of_computing hcomputing
      exact ⟨n, a, rfl, ⟨hphase, hrunning⟩, hreport⟩

/-- After a failed submission the worker is free at the end of the backoff, or at the cancellation
if that comes first. -/
theorem Answered.pausing {e : TransportError} (h : shift.Answered n report (.error e)) :
    (shift.worker (n + 1)).phase = .pausing ∧
      (shift.worker (n + 1)).wake = max (shift.worker n).wake
        (min ((shift.worker n).wake + shift.circumstances.pace.backoff)
          shift.circumstances.cancelAt) := by
  rw [worker_succ, Worker.advance_of_failed h]
  exact ⟨rfl, rfl⟩

/-- A worker that is stopped, or cancelled before a round, calls for nothing from then on. -/
theorem not_fetches_of_cancelled (h : (shift.worker n).phase = .stopped ∨
    (shift.worker n).isFree = true ∧ shift.circumstances.cancelAt ≤ (shift.worker n).wake) :
    ∀ m ≥ n, ¬ shift.Fetches m := by
  have hstays : ∀ m ≥ n, (shift.worker m).phase = .stopped ∨ (shift.worker m).isFree = true ∧
      shift.circumstances.cancelAt ≤ (shift.worker m).wake := by
    intro m hm
    induction m, hm using Nat.le_induction with
    | base => exact h
    | succ m _ ih =>
      left
      obtain hstopped | ⟨hfree, hcancelled⟩ := ih
      · rw [worker_succ, Worker.advance_of_stopped hstopped]
        exact hstopped
      · rw [worker_succ, Worker.advance_of_cancelled hfree hcancelled]
  intro m hm hfetches
  obtain ⟨hfree, hrunning⟩ := fetches_iff.mp hfetches
  obtain hstopped | ⟨-, hcancelled⟩ := hstays m hm
  · simp [Worker.isFree, hstopped] at hfree
  · exact absurd hrunning (Nat.not_lt_of_le hcancelled)

/-! ## Reports that are dropped -/

/-- A report whose submission fails is dropped if the backoff ends before the cancellation: the next
turn calls for an assignment, and no submission of the report has succeeded. -/
theorem Answered.not_keepsReports {e : TransportError} (h : shift.Answered n report (.error e))
    (hearly : (shift.worker n).wake + shift.circumstances.pace.backoff <
      shift.circumstances.cancelAt) : ¬ shift.KeepsReports := by
  intro hkeeps
  obtain ⟨hpausing, hwake⟩ := h.pausing
  have hfetches : shift.Fetches (n + 1) := by
    refine fetches_iff.mpr ⟨by rw [Worker.isFree, hpausing], ?_⟩
    rw [hwake]
    omega
  obtain ⟨k, a, rfl, hreceives, rfl⟩ := h.exists_receives
  obtain ⟨l, hafter, hbefore, hdelivered⟩ := hkeeps k a hreceives _ (by omega) hfetches
  unfold Answered at h hdelivered
  obtain rfl | rfl | rfl : l = k + 1 ∨ l = k + 2 ∨ l = k + 3 := by omega
  · rw [hreceives.computing] at hdelivered
    cases hdelivered
  · rw [h] at hdelivered
    cases hdelivered
  · rw [hpausing] at hdelivered
    cases hdelivered

/-- **A report whose submission fails is never sent again.** Whatever a link answers, and after
whatever delays: the worker calls for no assignment before the report on the last one is delivered
if and only if each of its failed submissions is followed by the cancellation before the backoff is
over. Any other failed submission loses its report. -/
theorem keepsReports_iff (shift : Shift σ) : shift.KeepsReports ↔
    ∀ n report e, shift.Answered n report (.error e) →
      shift.circumstances.cancelAt ≤
        (shift.worker n).wake + shift.circumstances.pace.backoff := by
  constructor
  · intro hkeeps n report e hfailed
    by_contra hearly
    exact hfailed.not_keepsReports (Nat.lt_of_not_le hearly) hkeeps
  · intro hlate n a hreceives m hm hfetches
    obtain ⟨outcome, hanswered⟩ := exists_answered hreceives.computing
    have hbusy : m ≠ n + 1 := by
      rintro rfl
      have hfree := (fetches_iff.mp hfetches).1
      simp [Worker.isFree, hreceives.computing] at hfree
    cases outcome with
    | ok => exact ⟨n + 2, by omega, by omega, hanswered⟩
    | error e =>
      have hfailed : m ≠ n + 2 := by
        rintro rfl
        have hfree := (fetches_iff.mp hfetches).1
        unfold Answered at hanswered
        simp [Worker.isFree, hanswered] at hfree
      obtain ⟨hpausing, hwake⟩ := hanswered.pausing
      have hcancelled := hlate _ _ _ hanswered
      refine absurd hfetches (not_fetches_of_cancelled (n := n + 3) (Or.inr ⟨?_, ?_⟩) m ?_)
      · rw [Worker.isFree, hpausing]
      · rw [hwake]
        omega
      · omega

/-! ## Tasks that are lost -/

/-- A worker without a report to submit leaves alone what has no task for it. -/
theorem unchanged_of_hand?_eq_none {state : σ}
    (hfetch : (shift.link.fetch state).1.1 = .ok none ∧ (shift.link.fetch state).2 = state)
    (hstate : (shift.before n).2 = state)
    (hhand : (shift.worker n).hand? shift.circumstances = none) :
    ∀ m ≥ n, (shift.before m).2 = state := by
  suffices hstays : ∀ m ≥ n, (shift.before m).2 = state ∧
      (shift.worker m).hand? shift.circumstances = none from fun m hm => (hstays m hm).1
  intro m hm
  induction m, hm using Nat.le_induction with
  | base => exact ⟨hstate, hhand⟩
  | succ m _ ih =>
    obtain ⟨hstate, hhand⟩ := ih
    have hturn := shift.turn m
    rw [hstate] at hturn
    generalize shift.worker (m + 1) = after, (shift.before (m + 1)).2 = left at hturn ⊢
    generalize shift.deeds m = deeds at hturn
    cases hturn with
    | fetches =>
      refine ⟨hfetch.2, ?_⟩
      simp [Worker.hand?, Worker.await, hfetch.1]
    | receives a hphase | submits _ hphase => simp [Worker.hand?, hphase] at hhand
    | ended => exact ⟨rfl, hhand⟩
    | _ => exact ⟨rfl, rfl⟩

/-- A worker at the scheduler, with one task to do; the link fails when it submits the report. -/
def lossy : Shift (Transacted Memory × List (TaskId × Nat)) where
  circumstances := ⟨.ieee, ⟨100, 500, .uniform 0⟩, 5000⟩
  link := (Scheduler.link (Memory.store.handle ⟨0, 0⟩) (·.committed.tasks.length)).failing
    (.request "connection refused")
  id := 0
  start := (.of (Service.submit Memory.store ⟨0, 0⟩ 7 "-(2)" Memory.empty).state, [(1, 1)])

/-- The report on the task is dropped, and the task is in processing for ever. -/
theorem lossy_loses : ¬ lossy.KeepsReports ∧
    ∀ m ≥ 3, ∃ t ∈ (lossy.before m).2.1.committed.tasks, t.id = 1 ∧ t.status = .processing := by
  have hphase : (lossy.worker 3).phase = .submitting (.success 1 1 ⟨0xc000000000000000⟩)
      (.error (.request "connection refused")) := by decide +kernel
  have hfailed : lossy.Answered 3 _ _ := hphase
  refine ⟨hfailed.not_keepsReports (by decide +kernel), fun m hm => ?_⟩
  have hfetch : (lossy.link.fetch (lossy.before 3).2).1.1 = .ok none ∧
      (lossy.link.fetch (lossy.before 3).2).2 = (lossy.before 3).2 := by decide +kernel
  rw [unchanged_of_hand?_eq_none hfetch rfl (by rw [Worker.hand?, hphase]) m hm]
  decide +kernel

end Shift

end Reckoner
