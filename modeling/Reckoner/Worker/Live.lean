import Reckoner.Worker.Basic

/-!
# Workers in the real time

A live worker acts as it does in a run on paper: it is the same worker, whose phases end when the
clock says so and whose link answers with what the other side has just said. It learns of a
cancellation by asking for it, several times a second.
-/

namespace Reckoner

/-- A call over the link. -/
inductive Errand where
  | fetch
  | submit (report : Report)

/-- The call that a worker makes at the end of its phase. -/
def Worker.errand? (c : Circumstances) (w : Worker) : Option Errand :=
  match w.phase with
  | .starting | .pausing | .submitting _ (.ok _) =>
    if c.cancelAt ≤ w.wake then none else some .fetch
  | .computing report => some (.submit report)
  | _ => none

/-- Whether a worker stops when it is cancelled in its phase: not with an assignment in hand. -/
def Worker.heedsCancellation (w : Worker) : Bool :=
  match w.phase with
  | .fetching _ | .computing _ => false
  | _ => true

/-- A link on which every call has the outcome that is given. -/
def Link.constant (fetched : Fetched) (submitted : Submitted) : Link Unit where
  fetch _ := ((fetched, 0), ())
  submit _ _ := ((submitted, 0), ())
  supply _ := 0

/-- What live workers need of the world. -/
structure World where
  fetch : IO Fetched
  submit : Report → IO Submitted
  /-- Whether the workers are cancelled. -/
  isCancelled : IO Bool
  /-- Writes to the log. -/
  log : Event → IO Unit

namespace World

/-- Makes a call and gives the link on which it has been made. -/
def perform (world : World) : Option Errand → IO (Link Unit)
  | some .fetch => return .constant (← world.fetch) (.ok ())
  | some (.submit report) => return .constant (.ok none) (← world.submit report)
  | none => return .constant (.ok none) (.ok ())

/-- Waits until the phase of a worker ends, or for the cancellation if the worker heeds it. -/
def await (world : World) (w : Worker) : IO Unit := do
  repeat
    let now ← IO.monoMsNow
    if w.wake ≤ now then break
    if w.heedsCancellation && (← world.isCancelled) then break
    IO.sleep (min 100 (w.wake - now)).toUInt32

/-- Runs a worker until it stops. -/
def runWorker (world : World) (arith : Arithmetic) (pace : Pace) (id : Nat) : IO Unit := do
  let mut w := Worker.new id
  while !w.isStopped do
    world.await w
    let now ← IO.monoMsNow
    let isOver := w.heedsCancellation && (← world.isCancelled)
    let c : Circumstances := ⟨arith, pace, if isOver then now else now + UInt64.size⟩
    let awake := { w with wake := now }
    let link ← world.perform (awake.errand? c)
    let (after, deeds, _) := awake.advance c link ()
    for event in deeds.filterMap Deed.event? do
      world.log event
    w := after

/-- Runs a pool of workers, each on a thread of its own, until all have stopped. -/
def runPool (world : World) (arith : Arithmetic) (pace : Pace) (power : Nat) : IO Unit := do
  if power = 0 then world.log .noWorkers
  else
    world.log .agentStarted
    let tasks ← (List.range power).mapM fun id =>
      IO.asTask (world.runWorker arith pace id) .dedicated
    for task in tasks do
      IO.ofExcept (← IO.wait task)
    world.log .agentStopped

end World

end Reckoner
