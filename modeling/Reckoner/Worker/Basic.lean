import Reckoner.Event
import Reckoner.Worker.Link
import Reckoner.Worker.Pace

/-!
# A worker

A worker fetches an assignment, computes it, holds the result back until the least time of the
operation is over, submits the report, and begins again. An error of the computation is reported
at once. A worker waits after an empty answer and after a failed call. A cancellation ends a wait
and a fetch; an assignment that has arrived is computed and submitted all the same.

Between two moments at which it acts, a worker is in a phase that ends at a known time.
-/

namespace Reckoner

/-- The report on an assignment, and how long after its arrival it is submitted. -/
def Floors.execute (floors : Floors) (arith : Arithmetic) (a : Assignment) : Report × Nat :=
  match calculate arith a.operation a.args with
  | .ok value => (Report.ofValue a.id a.expressionId value, floors.ofSymbol a.operation)
  | .error e => (Report.failure a.id a.expressionId e.message, 0)

/-- What a worker is waiting for. -/
inductive Phase where
  /-- To be started. -/
  | starting
  /-- The outcome of a fetch. -/
  | fetching (outcome : Fetched)
  /-- The end of a pause. -/
  | pausing
  /-- The time to submit a report. -/
  | computing (report : Report)
  /-- The outcome of a submission. -/
  | submitting (report : Report) (outcome : Submitted)
  /-- Nothing more. -/
  | stopped

/-- A worker between two moments at which it acts. -/
structure Worker where
  /-- The worker's number. -/
  id : Nat
  /-- What it is waiting for. -/
  phase : Phase
  /-- When its phase ends; when it stopped, once it has. -/
  wake : Nat
  /-- The sentence of the last fetch, if that failed. -/
  lastError : Option String
  /-- Whether an empty answer was logged since the last assignment. -/
  waiting : Bool

/-- Something that a worker does at a moment. -/
inductive Deed where
  /-- It called for an assignment, with this outcome. -/
  | fetch (outcome : Fetched)
  /-- It called to submit a report. -/
  | submit (report : Report)
  /-- It wrote to the log. -/
  | log (event : Event)

/-- The event of a deed that writes to the log. -/
def Deed.event? : Deed → Option Event
  | log event => some event
  | _ => none

/-- The circumstances under which workers run. -/
structure Circumstances where
  /-- What they compute with. -/
  arith : Arithmetic
  /-- How fast they are. -/
  pace : Pace
  /-- When they are cancelled. -/
  cancelAt : Nat

namespace Worker

variable {σ : Type}

/-- A worker that has not begun. -/
def new (id : Nat) : Worker := ⟨id, .starting, 0, none, false⟩

/-- Whether a worker has come to its end. -/
def isStopped (w : Worker) : Bool :=
  match w.phase with
  | .stopped => true
  | _ => false

/-- Waits until a phase is over, or until the cancellation if that comes first. -/
def await (c : Circumstances) (w : Worker) (phase : Phase) (ms : Nat) : Worker :=
  { w with phase, wake := max w.wake (min (w.wake + ms) c.cancelAt) }

/-- Stops. -/
def stop (w : Worker) : Worker × List Deed :=
  ({ w with phase := .stopped }, [.log (.workerStopped w.id)])

/-- Begins a round: fetches, unless the worker is cancelled. -/
def beginRound (c : Circumstances) (link : Link σ) (w : Worker) (state : σ) :
    Worker × List Deed × σ :=
  if c.cancelAt ≤ w.wake then
    let (stopped, deeds) := w.stop
    (stopped, deeds, state)
  else
    let ((outcome, delay), after) := link.fetch state
    (w.await c (.fetching outcome) delay, [.fetch outcome], after)

/-- Goes on with the outcome of a fetch. -/
def takeOutcome (c : Circumstances) (w : Worker) : Fetched → Worker × List Deed
  | .error e =>
    let deeds := if w.lastError = some e.message then []
      else [Deed.log (.fetchFailed w.id e.message)]
    ({ w with lastError := some e.message }.await c .pausing c.pace.backoff, deeds)
  | .ok none =>
    let deeds := if w.waiting then [] else [Deed.log (.noTasks w.id)]
    ({ w with lastError := none, waiting := true }.await c .pausing c.pace.poll, deeds)
  | .ok (some a) =>
    let (report, floor) := c.pace.floors.execute c.arith a
    ({ w with
        lastError := none
        waiting := false
        phase := .computing report
        wake := w.wake + floor }, [])

/-- What a worker does at the end of its phase. -/
def advance (c : Circumstances) (link : Link σ) (w : Worker) (state : σ) :
    Worker × List Deed × σ :=
  match w.phase with
  | .stopped => (w, [], state)
  | .starting =>
    let (after, deeds, state) := w.beginRound c link state
    (after, .log (.workerStarted w.id) :: deeds, state)
  | .pausing => w.beginRound c link state
  | .fetching outcome =>
    if c.cancelAt ≤ w.wake then
      let (stopped, deeds) := w.stop
      (stopped, deeds, state)
    else
      let (after, deeds) := w.takeOutcome c outcome
      (after, deeds, state)
  | .computing report =>
    let ((outcome, delay), after) := link.submit report state
    ({ w with phase := .submitting report outcome, wake := w.wake + delay }, [.submit report], after)
  | .submitting report (.error e) =>
    (w.await c .pausing c.pace.backoff, [.log (.submitFailed w.id report.id e.message)], state)
  | .submitting _ (.ok _) => w.beginRound c link state

end Worker

end Reckoner
