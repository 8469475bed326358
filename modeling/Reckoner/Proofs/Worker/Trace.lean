import Reckoner.Proofs.Worker.Crew
import Reckoner.Proofs.Worker.Delivery
import Reckoner.Proofs.Worker.Ending

/-!
# What a worker alone does

A worker at a link that answers from a script: which reports it hands in and when, until when it
asks for assignments, and when it stops. Its calls are read off the moments of the run, and the
assignments that have reached it off the script, given when it called for them; a call that the
script has no answer left for brings none.

A worker between two turns may owe the report on an assignment that has arrived, and what it will
hand in is that report and those on what will still arrive. This is kept from turn to turn, whatever
the phase, and so is the time at which the worker would stop if it handed in nothing more.
-/

namespace Reckoner

variable {σ : Type}

/-! ## Calls and answers -/

/-- An assignment that has arrived, and when. -/
structure Arrival where
  time : Nat
  assignment : Assignment

/-- What the operation of an assignment gives. -/
def Arrival.outcome (arith : Arithmetic) (arrival : Arrival) : Except ComputeError Binary64 :=
  calculate arith arrival.assignment.operation arrival.assignment.args

/-- A report that is handed in, and when the call is made. -/
structure Delivery where
  time : Nat
  report : Report
deriving DecidableEq

/-- When a call for an assignment was made, if this was one. -/
def Moment.call? (moment : Moment) : Option Nat :=
  match moment.deed with
  | .fetch _ => some moment.time
  | _ => none

/-- The report that was handed in, if one was. -/
def Moment.delivery? (moment : Moment) : Option Delivery :=
  moment.deed.submitted?.map (⟨moment.time, ·⟩)

/-- When calls for assignments were made among some moments. -/
def callsOf (moments : List Moment) : List Nat := moments.filterMap Moment.call?

/-- The reports that were handed in among some moments. -/
def deliveriesOf (moments : List Moment) : List Delivery := moments.filterMap Moment.delivery?

/-- The assignments among the answers to calls made at these times, so far as they arrive before the
cancellation. -/
def arrivals (cancelAt : Nat) (calls : List Nat) (answers : List (Fetched × Nat)) : List Arrival :=
  (calls.zip answers).filterMap fun
    | (time, .ok (some a), delay) =>
      if time + delay < cancelAt then some ⟨time + delay, a⟩ else none
    | _ => none

/-- When the submissions called at these times return; one without an answer returns at once. -/
def returns : List Nat → List (Submitted × Nat) → List Nat
  | [], _ => []
  | time :: times, [] => time :: returns times []
  | time :: times, (_, delay) :: answers => (time + delay) :: returns times answers

/-- A report on an assignment that has arrived: of its result, handed in when the least time of the
operation is over, or of the error, handed in at once. -/
structure Delivery.Answers (c : Circumstances) (arrival : Arrival) (delivery : Delivery) :
    Prop where
  id_eq : delivery.report.id = arrival.assignment.id
  expressionId_eq : delivery.report.expressionId = arrival.assignment.expressionId
  /-- A value is held back, finite or not. -/
  held : ∀ value, arrival.outcome c.arith = .ok value →
    delivery.time = arrival.time + c.pace.floors.ofSymbol arrival.assignment.operation
  finite : ∀ value, arrival.outcome c.arith = .ok value → value.isFinite = true →
    delivery.report.result = value ∧ delivery.report.error = ""
  /-- The error says which value it is that is not finite. -/
  infinite : ∀ value, arrival.outcome c.arith = .ok value → value.isFinite = false →
    delivery.report.result = .zero ∧ nonFiniteError value = some delivery.report.error
  failed : ∀ e, arrival.outcome c.arith = .error e →
    delivery.time = arrival.time ∧ delivery.report.result = .zero ∧
      delivery.report.error = e.message

/-- What a run of a worker alone keeps to. -/
structure Run.Lawful (c : Circumstances) (id : Nat) (script : Script) (run : Run Script) :
    Prop where
  /-- The reports are those on the assignments that have arrived, in order and once each. -/
  answers : List.Forall₂ (Delivery.Answers c)
    (arrivals c.cancelAt (callsOf run.moments) script.fetches) (deliveriesOf run.moments)
  calls_lt : ∀ time ∈ callsOf run.moments, time < c.cancelAt
  /-- The worker stops, and does nothing after it. -/
  stops : run.moments.getLast? = some ⟨run.finishedAt, .log (.workerStopped id)⟩
  /-- The cancellation ends the run of a worker that has nothing in hand. -/
  cancelled :
    (∀ time ∈ returns ((deliveriesOf run.moments).map Delivery.time) script.submissions,
      time ≤ c.cancelAt) → run.finishedAt = c.cancelAt
  /-- A report in hand at the cancellation is handed in, and the run ends when this call returns. -/
  overrun :
    ∀ time ∈ returns ((deliveriesOf run.moments).map Delivery.time) script.submissions,
      c.cancelAt < time → run.finishedAt = time

/-! ## Answers from a script -/

/-- A submission takes no answer to a call for an assignment. -/
theorem Script.fetches_submit (script : Script) : script.submit.2.fetches = script.fetches := by
  unfold submit
  split <;> rfl

/-- A call for an assignment takes no answer to a submission. -/
theorem Script.submissions_fetch (script : Script) :
    script.fetch.2.submissions = script.submissions := by
  unfold fetch
  split <;> rfl

/-- The first submission returns after the delay that the script has for it. -/
theorem returns_cons (script : Script) (time : Nat) (times : List Nat) :
    returns (time :: times) script.submissions =
      (time + script.submit.1.2) :: returns times script.submit.2.submissions := by
  obtain ⟨fetches, submissions⟩ := script
  cases submissions <;> rfl

/-- A link that answers from a script has something for as many calls as there are answers. -/
theorem Script.metered_link : link.Metered (fun _ => True) (·.fetches.length) where
  fetch_inv _ _ := trivial
  fetch_stock script _ := by
    change script.fetch.2.fetches.length ≤ _
    unfold fetch
    split <;> simp_all
  fetch_some script _ hsome := by
    change script.fetch.2.fetches.length < _
    change script.fetch.1.1 ≠ _ at hsome
    unfold fetch at hsome ⊢
    split <;> simp_all
  submit_inv _ _ _ := trivial
  submit_stock _ script _ := Nat.le_of_eq (congrArg List.length script.fetches_submit)

/-! ## The report on an assignment -/

/-- The report on an assignment, and when it is handed in. -/
def Arrival.delivery (c : Circumstances) (arrival : Arrival) : Delivery where
  time := arrival.time + (c.pace.floors.execute c.arith arrival.assignment).2
  report := Report.ofAssignment c.arith arrival.assignment

/-- The report on an assignment answers it. -/
theorem Arrival.answers_delivery (c : Circumstances) (arrival : Arrival) :
    (arrival.delivery c).Answers c arrival := by
  refine ⟨Report.id_ofAssignment .., Report.expressionId_ofAssignment .., ?_, ?_, ?_, ?_⟩
  · intro value hvalue
    unfold outcome at hvalue
    simp [delivery, Floors.execute, hvalue]
  · intro value hvalue hfinite
    unfold outcome at hvalue
    have hnone := (nonFiniteError_eq_none_iff value).mpr hfinite
    simp [delivery, Report.ofAssignment, hvalue, Report.ofValue, hnone, Report.success]
  · intro value hvalue hinfinite
    unfold outcome at hvalue
    cases herror : nonFiniteError value with
    | none =>
      rw [(nonFiniteError_eq_none_iff value).mp herror] at hinfinite
      cases hinfinite
    | some error =>
      simp [delivery, Report.ofAssignment, hvalue, Report.ofValue, herror, Report.failure]
  · intro e hfails
    unfold outcome at hfails
    simp [delivery, Floors.execute, Report.ofAssignment, hfails, Report.failure]

/-! ## The calls of a turn -/

/-- Calls are made turn by turn. -/
@[simp] theorem callsOf_append (moments later : List Moment) :
    callsOf (moments ++ later) = callsOf moments ++ callsOf later :=
  List.filterMap_append

/-- Reports are handed in turn by turn. -/
@[simp] theorem deliveriesOf_append (moments later : List Moment) :
    deliveriesOf (moments ++ later) = deliveriesOf moments ++ deliveriesOf later :=
  List.filterMap_append

namespace Worker

variable {c : Circumstances} {link : Link σ} {script left : Script} {w after : Worker}
  {state state' : σ} {deeds : List Deed} {time : Nat}

/-- A greeting is no call. -/
@[simp] theorem callsOf_greeting (w : Worker) :
    callsOf (w.greeting.map (Moment.mk time)) = [] := by
  unfold greeting
  split <;> rfl

/-- A greeting hands in nothing. -/
@[simp] theorem deliveriesOf_greeting (w : Worker) :
    deliveriesOf (w.greeting.map (Moment.mk time)) = [] := by
  unfold greeting
  split <;> rfl

/-- The report that a worker owes on an assignment that has arrived, or is on its way and arrives
before the cancellation. -/
def due (c : Circumstances) (w : Worker) : List Delivery :=
  match w.phase with
  | .fetching (.ok (some a)) =>
    if w.wake < c.cancelAt then [Arrival.delivery c ⟨w.wake, a⟩] else []
  | .computing report => [⟨w.wake, report⟩]
  | _ => []

/-- When a worker stops if whatever it still hands in returns before the cancellation. -/
def closing (c : Circumstances) (w : Worker) : Nat :=
  match w.phase with
  | .computing _ => c.cancelAt
  | _ => max w.wake c.cancelAt

/-- A cancelled worker with nothing to hand in. -/
def IsSpent (c : Circumstances) (w : Worker) : Prop :=
  c.cancelAt ≤ w.wake ∧ ∀ report, w.phase ≠ .computing report

/-- A stopped worker computes nothing. -/
theorem idle_of_isStopped (hstopped : w.isStopped = true) (report : Report) :
    w.phase ≠ .computing report := by
  rintro hphase
  simp [isStopped, hphase] at hstopped

/-- A free worker computes nothing. -/
theorem idle_of_isFree (hfree : w.isFree = true) (report : Report) :
    w.phase ≠ .computing report := by
  rintro hphase
  simp [isFree, hphase] at hfree

/-- A stopped worker owes nothing. -/
theorem due_of_isStopped (hstopped : w.isStopped = true) : w.due c = [] := by
  unfold isStopped at hstopped
  unfold due
  split at hstopped <;> simp_all

/-- A free worker owes nothing. -/
theorem due_of_isFree (hfree : w.isFree = true) : w.due c = [] := by
  unfold isFree at hfree
  unfold due
  split at hfree <;> simp_all

/-- A worker that computes nothing closes when it is cancelled. -/
theorem closing_of_idle (hidle : ∀ report, w.phase ≠ .computing report) :
    w.closing c = max w.wake c.cancelAt := by
  unfold closing
  split
  case h_1 report hphase => exact absurd hphase (hidle report)
  case h_2 => rfl

/-- A worker that is computing closes at the cancellation. -/
theorem closing_of_computing {report : Report} (hphase : w.phase = .computing report) :
    w.closing c = c.cancelAt := by
  rw [closing, hphase]

/-- An assignment that would arrive after the cancellation is not due. -/
theorem due_of_cancelled {fetched : Fetched} (hphase : w.phase = .fetching fetched)
    (hcancelled : c.cancelAt ≤ w.wake) : w.due c = [] := by
  unfold due
  rw [hphase]
  match fetched with
  | .error _ | .ok none => rfl
  | .ok (some a) => exact if_neg (Nat.not_lt_of_le hcancelled)

/-- What a call for an assignment brings from a script is due, unless it is nothing. -/
theorem due_fetch (hrunning : w.wake < c.cancelAt) (calls : List Nat) :
    due c (w.await c (.fetching script.fetch.1.1) script.fetch.1.2) ++
        (arrivals c.cancelAt calls script.fetch.2.fetches).map (Arrival.delivery c) =
      (arrivals c.cancelAt (w.wake :: calls) script.fetches).map (Arrival.delivery c) := by
  cases hfetches : script.fetches with
  | nil => simp [due, await, Script.fetch, arrivals, hfetches]
  | cons answer answers =>
    obtain ⟨outcome, delay⟩ := answer
    have hfetch : script.fetch = ((outcome, delay), { script with fetches := answers }) := by
      simp [Script.fetch, hfetches]
    rw [hfetch]
    rcases outcome with e | _ | a
    · rfl
    · rfl
    · obtain hearly | hlate := Nat.lt_or_ge (w.wake + delay) c.cancelAt
      · have hwake : max w.wake (min (w.wake + delay) c.cancelAt) = w.wake + delay := by omega
        simp [due, await, arrivals, hwake, hearly]
      · have hwake : ¬ max w.wake (min (w.wake + delay) c.cancelAt) < c.cancelAt := by omega
        simp [due, await, arrivals, hwake, Nat.not_lt_of_le hlate]

namespace Turn

/-- A worker calls for an assignment exactly at a turn at which it is free and not cancelled. -/
theorem callsOf_eq (h : w.Turn c link state after deeds state') :
    callsOf (deeds.map (Moment.mk time)) =
      if w.isFree = true ∧ w.wake < c.cancelAt then [time] else [] := by
  cases h with
  | ended hphase => simp [isFree, hphase, callsOf]
  | stops hfree hcancelled =>
    rw [List.map_append, callsOf_append, callsOf_greeting, if_neg fun h => by omega]
    rfl
  | fetches hfree hrunning =>
    rw [List.map_append, callsOf_append, callsOf_greeting, if_pos ⟨hfree, hrunning⟩]
    rfl
  | failsFetch _ hphase | findsNothing hphase =>
    split_ifs <;> simp_all [isFree, callsOf, Moment.call?]
  | abandons _ hphase | receives _ hphase | submits _ hphase | failsSubmit _ _ hphase =>
    simp [isFree, hphase, callsOf, Moment.call?]

/-- A worker hands in a report at the end of its computation only. -/
theorem deliveriesOf_eq (h : w.Turn c link state after deeds state')
    (hphase : ∀ report, w.phase ≠ .computing report) :
    deliveriesOf (deeds.map (Moment.mk time)) = [] := by
  cases h with
  | stops | fetches =>
    rw [List.map_append, deliveriesOf_append, deliveriesOf_greeting]
    rfl
  | failsFetch | findsNothing => split_ifs <;> rfl
  | submits report hcomputing => exact absurd hcomputing (hphase report)
  | _ => rfl

/-- A turn hands in what was due before it and leaves due what it has received. -/
theorem due_eq (h : w.Turn c Script.link script after deeds left) (calls : List Nat) :
    deliveriesOf (deeds.map (Moment.mk w.wake)) ++ (after.due c ++
        (arrivals c.cancelAt calls left.fetches).map (Arrival.delivery c)) =
      w.due c ++ (arrivals c.cancelAt (callsOf (deeds.map (Moment.mk w.wake)) ++ calls)
        script.fetches).map (Arrival.delivery c) := by
  rw [h.callsOf_eq]
  -- only the turn that ends a computation hands something in
  have hnone : (∀ report, w.phase ≠ .computing report) →
      deliveriesOf (deeds.map (Moment.mk w.wake)) = [] := h.deliveriesOf_eq
  cases h with
  | ended hphase =>
    rw [hnone (by simp [hphase])]
    simp [isFree, hphase]
  | stops hfree hcancelled =>
    rw [hnone (idle_of_isFree hfree), due_of_isFree hfree, if_neg fun h => by omega]
    rfl
  | fetches hfree hrunning =>
    rw [hnone (idle_of_isFree hfree), due_of_isFree hfree, if_pos ⟨hfree, hrunning⟩]
    exact due_fetch hrunning calls
  | abandons fetched hphase hcancelled =>
    rw [hnone (by simp [hphase]), due_of_cancelled hphase hcancelled]
    simp [isFree, hphase, due]
  | failsFetch e hphase | findsNothing hphase | failsSubmit report e hphase =>
    rw [hnone (by simp [hphase])]
    simp [isFree, hphase, due, await]
  | receives a hphase hrunning =>
    rw [hnone (by simp [hphase])]
    simp [isFree, hphase, due, hrunning, Arrival.delivery]
  | submits report hphase =>
    simp [isFree, hphase, due, deliveriesOf, Moment.delivery?, Deed.submitted?, Script.link,
      Script.fetches_submit]

/-- A spent worker stays so. -/
theorem isSpent (h : w.Turn c link state after deeds state') (hspent : w.IsSpent c) :
    after.IsSpent c := by
  obtain ⟨hcancelled, hphase⟩ := hspent
  cases h with
  | ended => exact ⟨hcancelled, hphase⟩
  | stops | abandons => exact ⟨hcancelled, by simp⟩
  | fetches _ hrunning | failsFetch _ _ hrunning | findsNothing _ hrunning
  | receives _ _ hrunning => exact absurd hrunning (Nat.not_lt_of_le hcancelled)
  | submits report hcomputing => exact absurd hcomputing (hphase report)
  | failsSubmit => exact ⟨Nat.le_trans hcancelled (Nat.le_max_left ..), by simp [await]⟩

/-- A turn that hands in nothing does not change when the worker closes. -/
theorem closing_eq (h : w.Turn c link state after deeds state')
    (hphase : ∀ report, w.phase ≠ .computing report) : after.closing c = w.closing c := by
  rw [closing_of_idle hphase]
  cases h with
  | ended => exact closing_of_idle hphase
  | stops | abandons => rfl
  | fetches | receives | failsFetch | findsNothing | failsSubmit =>
    simp only [closing, await]
    omega
  | submits report hcomputing => exact absurd hcomputing (hphase report)

/-- A turn that computes nothing uses up no answer to a submission. -/
theorem submissions_eq (h : w.Turn c Script.link script after deeds left)
    (hphase : ∀ report, w.phase ≠ .computing report) : left.submissions = script.submissions := by
  cases h with
  | fetches => exact script.submissions_fetch
  | submits report hcomputing => exact absurd hcomputing (hphase report)
  | _ => rfl

end Turn

end Worker

/-! ## From turn to turn -/

namespace Shift

/-- Calls for assignments are made before the cancellation. -/
theorem lt_of_mem_callsOf (shift : Shift σ) {n count time : Nat}
    (hcall : time ∈ callsOf (shift.during n count)) : time < shift.circumstances.cancelAt := by
  induction count generalizing n with
  | zero => cases hcall
  | succ count ih =>
    rw [during_succ, callsOf_append] at hcall
    obtain hnow | hlater := List.mem_append.mp hcall
    · rw [moments, (shift.turn n).callsOf_eq] at hnow
      split_ifs at hnow with hcalls
      · obtain rfl := List.mem_singleton.mp hnow
        exact hcalls.2
      · cases hnow
    · exact ih hlater

/-- A spent worker hands in nothing more. -/
theorem deliveriesOf_of_isSpent (shift : Shift σ) {n : Nat} (count : Nat)
    (hspent : (shift.worker n).IsSpent shift.circumstances) :
    deliveriesOf (shift.during n count) = [] := by
  induction count generalizing n with
  | zero => rfl
  | succ count ih =>
    rw [during_succ, deliveriesOf_append, ih ((shift.turn n).isSpent hspent), moments,
      (shift.turn n).deliveriesOf_eq hspent.2]
    rfl

/-! ## A worker at a script -/

variable {shift : Shift Script}

/-- A turn at a script. -/
theorem turn_of_scripted (hlink : shift.link = Script.link) (n : Nat) :
    (shift.worker n).Turn shift.circumstances Script.link (shift.before n).2 (shift.worker (n + 1))
      (shift.deeds n) (shift.before (n + 1)).2 :=
  hlink ▸ shift.turn n

/-- Until it stops, a worker hands in the reports on what has arrived before and on what arrives. -/
theorem deliveriesOf_during (hlink : shift.link = Script.link) (n count : Nat)
    (hstopped : (shift.worker (n + count)).isStopped = true) :
    deliveriesOf (shift.during n count) = (shift.worker n).due shift.circumstances ++
      (arrivals shift.circumstances.cancelAt (callsOf (shift.during n count))
        (shift.before n).2.fetches).map (Arrival.delivery shift.circumstances) := by
  induction count generalizing n with
  | zero =>
    rw [Nat.add_zero] at hstopped
    rw [Worker.due_of_isStopped hstopped]
    rfl
  | succ count ih =>
    rw [during_succ, deliveriesOf_append, callsOf_append,
      ih (n + 1) (by rwa [Nat.add_right_comm])]
    exact (turn_of_scripted hlink n).due_eq _

/-- When the submissions of some turns from one on return. -/
def returned (shift : Shift Script) (n count : Nat) : List Nat :=
  returns ((deliveriesOf (shift.during n count)).map Delivery.time) (shift.before n).2.submissions

/-- A turn that computes nothing leaves to the others what returns. -/
theorem returned_succ (hlink : shift.link = Script.link) {n : Nat} (count : Nat)
    (hphase : ∀ report, (shift.worker n).phase ≠ .computing report) :
    shift.returned n (count + 1) = shift.returned (n + 1) count := by
  have hturn := turn_of_scripted hlink n
  rw [returned, returned, during_succ, deliveriesOf_append, moments, hturn.deliveriesOf_eq hphase,
    hturn.submissions_eq hphase]
  rfl

/-- The turn that hands in a report leads to the time at which this call returns. -/
theorem returned_succ_of_computing (hlink : shift.link = Script.link) {n : Nat} (count : Nat)
    {report : Report} (hphase : (shift.worker n).phase = .computing report) :
    shift.returned n (count + 1) = (shift.worker (n + 1)).wake :: shift.returned (n + 1) count := by
  have hadvance : (shift.worker n).advance shift.circumstances shift.link (shift.before n).2 =
      ({ shift.worker n with
          phase := .submitting report (shift.before n).2.submit.1.1
          wake := (shift.worker n).wake + (shift.before n).2.submit.1.2 },
        [.submit report], (shift.before n).2.submit.2) := by
    rw [Worker.advance_of_computing hphase, hlink]
    rfl
  have hwake : (shift.worker (n + 1)).wake =
      (shift.worker n).wake + (shift.before n).2.submit.1.2 := by
    rw [worker_succ, hadvance]
  have hleft : (shift.before (n + 1)).2 = (shift.before n).2.submit.2 :=
    congrArg (·.2.2) hadvance
  rw [returned, returned, during_succ, deliveriesOf_append, moments, deeds, hadvance, hwake, hleft]
  exact returns_cons ..

/-- After a spent worker nothing more returns. -/
theorem returned_of_isSpent {n : Nat} (count : Nat)
    (hspent : (shift.worker n).IsSpent shift.circumstances) : shift.returned n count = [] := by
  rw [returned, deliveriesOf_of_isSpent shift count hspent]
  rfl

/-- A worker that has the outcome of a submission computes nothing. -/
theorem Answered.idle {n : Nat} {report : Report} {outcome : Submitted}
    (h : shift.Answered n report outcome) (other : Report) :
    (shift.worker n).phase ≠ .computing other := by
  rw [Answered] at h
  simp [h]

/-- A submission that returns after the cancellation ends the run; without one the run ends when the
worker closes. -/
theorem wake_eq (hlink : shift.link = Script.link) (n count : Nat)
    (hstopped : (shift.worker (n + count)).isStopped = true)
    (hcancelled : shift.circumstances.cancelAt ≤ (shift.worker (n + count)).wake) :
    (∀ time ∈ shift.returned n count, shift.circumstances.cancelAt < time →
      (shift.worker (n + count)).wake = time) ∧
    ((∀ time ∈ shift.returned n count, time ≤ shift.circumstances.cancelAt) →
      (shift.worker (n + count)).wake = (shift.worker n).closing shift.circumstances) := by
  induction count generalizing n with
  | zero =>
    rw [Nat.add_zero] at hstopped hcancelled ⊢
    refine ⟨fun _ hmem => (by cases hmem), fun _ => ?_⟩
    rw [Worker.closing_of_idle (Worker.idle_of_isStopped hstopped), Nat.max_eq_left hcancelled]
  | succ count ih =>
    rw [← Nat.add_assoc, Nat.add_right_comm] at hstopped hcancelled ⊢
    -- what returns is as before, or one submission returns first, at the worker's next turn
    obtain ⟨hovertime, hends⟩ := ih (n + 1) hstopped hcancelled
    by_cases hcomputing : ∃ report, (shift.worker n).phase = .computing report
    · obtain ⟨report, hphase⟩ := hcomputing
      obtain ⟨outcome, hanswered⟩ := exists_answered hphase
      rw [Worker.closing_of_idle hanswered.idle] at hends
      rw [returned_succ_of_computing hlink count hphase, Worker.closing_of_computing hphase]
      refine ⟨List.forall_mem_cons.mpr ⟨fun hlate => ?_, hovertime⟩, fun hearly => ?_⟩
      · have hnone := returned_of_isSpent count ⟨Nat.le_of_lt hlate, hanswered.idle⟩
        rw [hends (by simp [hnone]), Nat.max_eq_left (Nat.le_of_lt hlate)]
      · obtain ⟨hnow, hlater⟩ := List.forall_mem_cons.mp hearly
        rw [hends hlater, Nat.max_eq_right hnow]
    · have hphase := not_exists.mp hcomputing
      rw [returned_succ hlink count hphase, ← (turn_of_scripted hlink n).closing_eq hphase]
      exact ⟨hovertime, hends⟩

end Shift

/-! ## Whole runs -/

/-- **A worker alone does what its assignments ask, until it is cancelled.** Whatever a script
answers, after whatever delays, with any least times of the operations, any backoff and any time of
the cancellation, and with a wait of a millisecond or more after an empty answer: the reports that
the worker hands in are, in order and once each, those on the assignments that have reached it; a
value is reported when the least time of its operation is over since the assignment arrived, an
error at once. The worker asks for nothing at the cancellation or later. It stops at the
cancellation, unless it has an assignment in hand then: it stops when the submission of the report
on that one returns. -/
theorem Worker.run_lawful (c : Circumstances) (id : Nat) (script : Script)
    (hpoll : 1 ≤ c.pace.poll) : (Worker.run c Script.link id script).Lawful c id script := by
  let shift : Shift Script := ⟨c, Script.link, id, script⟩
  obtain ⟨last, hmoments, hrunning, hstopped, hfinished⟩ :=
    shift.exists_end Script.metered_link hpoll trivial (Nat.le_refl _)
  change (Worker.run c Script.link id script).moments = _ at hmoments
  change (Worker.run c Script.link id script).finishedAt = _ at hfinished
  obtain ⟨hcancelled, hwake, before, hdeeds⟩ := (shift.turn last).of_stopped hrunning hstopped
  rw [← Nat.zero_add (last + 1)] at hstopped hcancelled hfinished
  have hdeliveries := @Shift.deliveriesOf_during shift rfl 0 _ hstopped
  obtain ⟨hovertime, hends⟩ := @Shift.wake_eq shift rfl 0 _ hstopped hcancelled
  rw [← hfinished] at hovertime hends
  refine ⟨?_, ?_, ?_, ?_, ?_⟩
  · rw [hmoments, hdeliveries]
    exact List.forall₂_map_right_iff.mpr (List.forall₂_same.mpr fun arrival _ =>
      arrival.answers_delivery c)
  · rw [hmoments]
    exact fun _ => shift.lt_of_mem_callsOf
  · rw [hmoments, hfinished, Nat.zero_add, hwake, Shift.during_concat, Nat.zero_add,
      Shift.moments, hdeeds, List.map_append, ← List.append_assoc, shift.id_worker]
    exact List.getLast?_concat
  · rw [hmoments]
    intro hearly
    rw [hends hearly]
    exact Nat.zero_max _
  · rw [hmoments]
    exact fun time hreturned hlate => hovertime time hreturned hlate

/-- A worker that holds each result back for 40 milliseconds and is cancelled after 300. -/
def Worker.sampleCircumstances : Circumstances := ⟨.ieee, ⟨100, 100, .uniform 40⟩, 300⟩

/-- A sum, a symbol that is none, whose report is refused, and a product, all after delays. -/
def Script.sample : Script where
  fetches := [
    (.ok (some ⟨1, ⟨some ⟨0x4000000000000000⟩, some ⟨0x4000000000000000⟩⟩, "+", 1, ""⟩), 5),
    (.ok (some ⟨2, ⟨some ⟨0x4000000000000000⟩, none⟩, "%", 1, ""⟩), 0),
    (.ok (some ⟨3, ⟨some ⟨0x4000000000000000⟩, some ⟨0x4008000000000000⟩⟩, "*", 2, ""⟩), 120)]
  submissions := [(.ok (), 10), (.error (.request "refused"), 0), (.ok (), 20)]

/-- The worker is computing the product at the cancellation and stops when its report is taken. -/
theorem Worker.run_lawful_sample :
    let run := Worker.run sampleCircumstances Script.link 0 .sample
    deliveriesOf run.moments = [⟨45, .success 1 1 ⟨0x4010000000000000⟩⟩,
      ⟨55, .failure 2 1 (Operation.unknownMessage "%")⟩, ⟨315, .success 3 2 ⟨0x4018000000000000⟩⟩] ∧
    run.finishedAt = 335 := by
  have hlawful := Worker.run_lawful sampleCircumstances 0 .sample (by decide)
  exact ⟨by decide +kernel, hlawful.overrun 335 (by decide +kernel) (by decide)⟩

end Reckoner
