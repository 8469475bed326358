import Reckoner.Proofs.Scheduler.History
import Reckoner.Worker.Pool

/-!
# The turns of a worker

`Worker.Turn` lists what a worker can do when its phase ends, with all conditions; everything that
is shown of workers goes by its cases. A `Shift` is one worker at one link, turn after turn without
an end; a run of the worker alone is a beginning of it.
-/

namespace Reckoner

deriving instance DecidableEq for Phase

variable {σ : Type}

namespace Worker

/-- Whether a worker begins a round when its phase ends. -/
def isFree (w : Worker) : Bool :=
  match w.phase with
  | .starting | .pausing | .submitting _ (.ok _) => true
  | _ => false

/-- What a worker that is not stopped says at its first turn. -/
def greeting (w : Worker) : List Deed :=
  match w.phase with
  | .starting => [.log (.workerStarted w.id)]
  | _ => []

/-- The report that a worker has still to submit: on an assignment that has arrived. -/
def hand? (c : Circumstances) (w : Worker) : Option Report :=
  match w.phase with
  | .fetching (.ok (some a)) => some (Report.ofAssignment c.arith a)
  | .computing report => some report
  | _ => none

variable {c : Circumstances} {link : Link σ} {w : Worker} {state : σ} {report : Report}
  {outcome : Submitted}

/-! ## Turns by phase -/

/-- A stopped worker does nothing. -/
theorem advance_of_stopped (hphase : w.phase = .stopped) :
    w.advance c link state = (w, [], state) := by
  simp [advance, hphase]

/-- A free worker begins a round. -/
theorem advance_of_isFree (hfree : w.isFree = true) :
    w.advance c link state = ((w.beginRound c link state).1,
      w.greeting ++ (w.beginRound c link state).2.1, (w.beginRound c link state).2.2) := by
  unfold isFree at hfree
  unfold greeting advance
  split at hfree
  case h_4 => cases hfree
  all_goals simp_all

/-- A cancelled worker stops instead of beginning a round. -/
theorem advance_of_cancelled (hfree : w.isFree = true) (hcancelled : c.cancelAt ≤ w.wake) :
    w.advance c link state =
      ({ w with phase := .stopped }, w.greeting ++ [.log (.workerStopped w.id)], state) := by
  rw [advance_of_isFree hfree, beginRound, if_pos hcancelled]
  rfl

/-- Before the cancellation a free worker calls for an assignment. -/
theorem advance_of_running (hfree : w.isFree = true) (hrunning : w.wake < c.cancelAt) :
    w.advance c link state =
      (w.await c (.fetching (link.fetch state).1.1) (link.fetch state).1.2,
        w.greeting ++ [.fetch (link.fetch state).1.1], (link.fetch state).2) := by
  rw [advance_of_isFree hfree, beginRound, if_neg (Nat.not_le_of_lt hrunning)]

/-- The cancellation ends a fetch. -/
theorem advance_of_abandoned {fetched : Fetched} (hphase : w.phase = .fetching fetched)
    (hcancelled : c.cancelAt ≤ w.wake) :
    w.advance c link state =
      ({ w with phase := .stopped }, [.log (.workerStopped w.id)], state) := by
  simp [advance, hphase, hcancelled, stop]

/-- What has arrived before the cancellation is taken up. -/
theorem advance_of_fetching {fetched : Fetched} (hphase : w.phase = .fetching fetched)
    (hrunning : w.wake < c.cancelAt) :
    w.advance c link state =
      ((w.takeOutcome c fetched).1, (w.takeOutcome c fetched).2, state) := by
  simp [advance, hphase, Nat.not_le_of_lt hrunning]

/-- An assignment that has arrived is computed. -/
theorem takeOutcome_some (a : Assignment) :
    w.takeOutcome c (.ok (some a)) =
      ({ w with
          lastError := none
          waiting := false
          phase := .computing (Report.ofAssignment c.arith a)
          wake := w.wake + (c.pace.floors.execute c.arith a).2 }, []) := by
  rw [← Floors.execute_fst c.pace.floors]
  rfl

/-- A computed report is submitted. -/
theorem advance_of_computing (hphase : w.phase = .computing report) :
    w.advance c link state =
      ({ w with
          phase := .submitting report (link.submit report state).1.1
          wake := w.wake + (link.submit report state).1.2 },
        [.submit report], (link.submit report state).2) := by
  simp [advance, hphase]

/-- A failed submission is logged, and the worker waits, until the cancellation at most. -/
theorem advance_of_failed {e : TransportError}
    (hphase : w.phase = .submitting report (.error e)) :
    w.advance c link state = (w.await c .pausing c.pace.backoff,
      [.log (.submitFailed w.id report.id e.message)], state) := by
  simp [advance, hphase]

/-! ## All turns -/

/-- What a worker can do at the end of its phase: the worker and the state of the link afterwards,
and what it has done. -/
inductive Turn (c : Circumstances) (link : Link σ) (w : Worker) (state : σ) :
    Worker → List Deed → σ → Prop
  | ended (hphase : w.phase = .stopped) : Turn c link w state w [] state
  | stops (hfree : w.isFree = true) (hcancelled : c.cancelAt ≤ w.wake) :
      Turn c link w state { w with phase := .stopped }
        (w.greeting ++ [.log (.workerStopped w.id)]) state
  | fetches (hfree : w.isFree = true) (hrunning : w.wake < c.cancelAt) :
      Turn c link w state (w.await c (.fetching (link.fetch state).1.1) (link.fetch state).1.2)
        (w.greeting ++ [.fetch (link.fetch state).1.1]) (link.fetch state).2
  | abandons (fetched : Fetched) (hphase : w.phase = .fetching fetched)
      (hcancelled : c.cancelAt ≤ w.wake) :
      Turn c link w state { w with phase := .stopped } [.log (.workerStopped w.id)] state
  /-- The sentence of a failure is logged unless the one before was the same. -/
  | failsFetch (e : TransportError) (hphase : w.phase = .fetching (.error e))
      (hrunning : w.wake < c.cancelAt) :
      Turn c link w state ({ w with lastError := some e.message }.await c .pausing c.pace.backoff)
        (if w.lastError = some e.message then [] else [.log (.fetchFailed w.id e.message)]) state
  /-- That there is no task is logged once. -/
  | findsNothing (hphase : w.phase = .fetching (.ok none)) (hrunning : w.wake < c.cancelAt) :
      Turn c link w state
        ({ w with lastError := none, waiting := true }.await c .pausing c.pace.poll)
        (if w.waiting then [] else [.log (.noTasks w.id)]) state
  | receives (a : Assignment) (hphase : w.phase = .fetching (.ok (some a)))
      (hrunning : w.wake < c.cancelAt) :
      Turn c link w state
        { w with
          lastError := none
          waiting := false
          phase := .computing (Report.ofAssignment c.arith a)
          wake := w.wake + (c.pace.floors.execute c.arith a).2 } [] state
  | submits (report : Report) (hphase : w.phase = .computing report) :
      Turn c link w state
        { w with
          phase := .submitting report (link.submit report state).1.1
          wake := w.wake + (link.submit report state).1.2 }
        [.submit report] (link.submit report state).2
  | failsSubmit (report : Report) (e : TransportError)
      (hphase : w.phase = .submitting report (.error e)) :
      Turn c link w state (w.await c .pausing c.pace.backoff)
        [.log (.submitFailed w.id report.id e.message)] state

/-- A worker that is neither stopped nor free fetches, computes or has failed to submit. -/
theorem phase_cases (w : Worker) : w.phase = .stopped ∨ w.isFree = true ∨
    (∃ fetched, w.phase = .fetching fetched) ∨ (∃ report, w.phase = .computing report) ∨
      ∃ report e, w.phase = .submitting report (.error e) := by
  unfold isFree
  cases w.phase with
  | submitting report outcome => cases outcome <;> simp
  | _ => simp

/-- Every turn is one of these. -/
theorem turn (c : Circumstances) (link : Link σ) (w : Worker) (state : σ) :
    w.Turn c link state (w.advance c link state).1 (w.advance c link state).2.1
      (w.advance c link state).2.2 := by
  obtain hphase | hfree | ⟨fetched, hphase⟩ | ⟨report, hphase⟩ | ⟨report, e, hphase⟩ :=
    w.phase_cases
  · rw [advance_of_stopped hphase]
    exact .ended hphase
  · obtain hrunning | hcancelled := Nat.lt_or_ge w.wake c.cancelAt
    · rw [advance_of_running hfree hrunning]
      exact .fetches hfree hrunning
    · rw [advance_of_cancelled hfree hcancelled]
      exact .stops hfree hcancelled
  · obtain hrunning | hcancelled := Nat.lt_or_ge w.wake c.cancelAt
    · rw [advance_of_fetching hphase hrunning]
      match fetched with
      | .error e => exact .failsFetch e hphase hrunning
      | .ok none => exact .findsNothing hphase hrunning
      | .ok (some a) =>
        rw [takeOutcome_some]
        exact .receives a hphase hrunning
    · rw [advance_of_abandoned hphase hcancelled]
      exact .abandons fetched hphase hcancelled
  · rw [advance_of_computing hphase]
    exact .submits report hphase
  · rw [advance_of_failed hphase]
    exact .failsSubmit report e hphase

namespace Turn

variable {after : Worker} {deeds : List Deed} {state' : σ}

/-- Only a free worker that is not cancelled calls for an assignment. -/
theorem of_fetch_mem (h : w.Turn c link state after deeds state') {fetched : Fetched}
    (hdeed : .fetch fetched ∈ deeds) : w.isFree = true ∧ w.wake < c.cancelAt := by
  cases h with
  | fetches hfree hrunning => exact ⟨hfree, hrunning⟩
  | stops =>
    unfold greeting at hdeed
    split at hdeed <;> simp at hdeed
  | failsFetch | findsNothing => split_ifs at hdeed <;> simp at hdeed
  | _ => simp at hdeed

/-- What is computed has arrived before the cancellation. -/
theorem fetching_of_computing (h : w.Turn c link state after deeds state')
    (hphase : after.phase = .computing report) : ∃ a, w.phase = .fetching (.ok (some a)) ∧
      w.wake < c.cancelAt ∧ report = Report.ofAssignment c.arith a := by
  cases h with
  | receives a ha hrunning =>
    cases hphase
    exact ⟨a, ha, hrunning, rfl⟩
  | ended h => rw [h] at hphase; cases hphase
  | _ => cases hphase

/-- A report that is submitted has been computed. -/
theorem computing_of_submitting (h : w.Turn c link state after deeds state')
    (hphase : after.phase = .submitting report outcome) : w.phase = .computing report := by
  cases h with
  | submits r hr =>
    cases hphase
    exact hr
  | ended h => rw [h] at hphase; cases hphase
  | _ => cases hphase

/-- A worker stops once it is cancelled, and says so. -/
theorem of_stopped (h : w.Turn c link state after deeds state') (hrunning : w.isStopped = false)
    (hstopped : after.isStopped = true) : c.cancelAt ≤ after.wake ∧ after.wake = w.wake ∧
      ∃ before, deeds = before ++ [.log (.workerStopped w.id)] := by
  cases h with
  | ended hphase => simp [isStopped, hphase] at hrunning
  | stops _ hcancelled => exact ⟨hcancelled, rfl, _, rfl⟩
  | abandons _ _ hcancelled => exact ⟨hcancelled, rfl, [], rfl⟩
  | _ => cases hstopped

/-- A worker keeps its number. -/
theorem id_eq (h : w.Turn c link state after deeds state') : after.id = w.id := by
  cases h <;> rfl

end Turn

end Worker

/-! ## A worker alone -/

/-- A worker at a link. -/
structure Shift (σ : Type) where
  circumstances : Circumstances
  link : Link σ
  /-- The worker's number. -/
  id : Nat
  /-- The state of the link at the start. -/
  start : σ

namespace Shift

variable (shift : Shift σ)

/-- The worker and the state of the link before the turn of a number. -/
def before : Nat → Worker × σ
  | 0 => (.new shift.id, shift.start)
  | n + 1 =>
    let after := (before n).1.advance shift.circumstances shift.link (before n).2
    (after.1, after.2.2)

/-- The worker before a turn. -/
def worker (n : Nat) : Worker := (shift.before n).1

/-- What the worker does at a turn. -/
def deeds (n : Nat) : List Deed :=
  ((shift.worker n).advance shift.circumstances shift.link (shift.before n).2).2.1

/-- The worker after a turn. -/
theorem worker_succ (n : Nat) : shift.worker (n + 1) =
    ((shift.worker n).advance shift.circumstances shift.link (shift.before n).2).1 := rfl

/-- A turn leads to the worker before the next one. -/
theorem turn (n : Nat) :
    (shift.worker n).Turn shift.circumstances shift.link (shift.before n).2 (shift.worker (n + 1))
      (shift.deeds n) (shift.before (n + 1)).2 :=
  Worker.turn shift.circumstances shift.link (shift.worker n) (shift.before n).2

/-- The worker keeps its number. -/
theorem id_worker (shift : Shift σ) (n : Nat) : (shift.worker n).id = shift.id := by
  induction n with
  | zero => rfl
  | succ n ih => exact (shift.turn n).id_eq.trans ih

/-- What the worker does at a turn, and when. -/
def moments (n : Nat) : List Moment :=
  (shift.deeds n).map (⟨(shift.worker n).wake, ·⟩)

/-- What the worker does at some turns from one on. -/
def during (n count : Nat) : List Moment := (List.range' n count).flatMap shift.moments

/-- The first turn comes before the others. -/
theorem during_succ (n count : Nat) :
    shift.during n (count + 1) = shift.moments n ++ shift.during (n + 1) count := by
  rw [during, List.range'_succ, List.flatMap_cons]
  rfl

/-- The last turn comes after the others. -/
theorem during_concat (n count : Nat) :
    shift.during n (count + 1) = shift.during n count ++ shift.moments (n + count) := by
  simp [during, List.range'_concat]

/-- The turns from one on that a worker alone takes when it runs: all that it may take, unless it
stops before. -/
theorem exists_runFor (fuel n latest : Nat) (hrunning : (shift.worker n).isStopped = false) :
    let run := Pool.runFor shift.circumstances shift.link fuel [shift.worker n] latest
      (shift.before n).2
    ∃ count, run.moments = shift.during n count ∧
      (∀ k < count, (shift.worker (n + k)).isStopped = false) ∧
      (count = fuel ∨ (shift.worker (n + count)).isStopped = true ∧
        run.finishedAt = max latest (shift.worker (n + count)).wake) := by
  induction fuel generalizing n with
  | zero => exact ⟨0, rfl, by simp, Or.inl rfl⟩
  | succ fuel ih =>
    simp only [Pool.runFor, Pool.takeNext, List.nil_append]
    split_ifs with hstopped
    · refine ⟨1, ?_, fun k hk => ?_, Or.inr ⟨hstopped, ?_⟩⟩
      · cases fuel <;> simp [Pool.runFor, Pool.takeNext, during, moments, deeds]
      · obtain rfl := Nat.lt_one_iff.mp hk
        exact hrunning
      · cases fuel <;> rfl
    · obtain ⟨count, hmoments, hbefore, hends⟩ := ih (n + 1) ((Bool.not_eq_true _).mp hstopped)
      refine ⟨count + 1, ?_, fun k hk => ?_, ?_⟩
      · rw [during_succ, ← hmoments]
        rfl
      · cases k with
        | zero => exact hrunning
        | succ k =>
          rw [← Nat.add_assoc, Nat.add_right_comm]
          exact hbefore k (by omega)
      · rw [← Nat.add_assoc, Nat.add_right_comm]
        exact hends.imp_left (congrArg (· + 1))

/-- A run of the worker alone is a beginning of its shift. -/
theorem exists_run : ∃ count,
    (Worker.run shift.circumstances shift.link shift.id shift.start).moments =
      shift.during 0 count := by
  obtain ⟨count, hmoments, -⟩ := shift.exists_runFor
    (Pool.fuel shift.circumstances shift.link 1 shift.start) 0 0 rfl
  exact ⟨count, hmoments⟩

end Shift

end Reckoner
