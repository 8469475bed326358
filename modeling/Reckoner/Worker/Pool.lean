import Reckoner.Scheduler
import Reckoner.Store.Basic
import Reckoner.Worker.Basic

/-!
# Workers in time

A pool runs its workers by always letting the one act whose phase ends first; of workers whose
phases end together, the one acts that has waited longest. A run ends when every worker has
stopped. A worker alone is a pool of one.
-/

namespace Reckoner

/-- Something done, and when. -/
structure Moment where
  /-- Milliseconds since the start. -/
  time : Nat
  /-- What was done. -/
  deed : Deed

/-- What a run brings about. -/
structure Run (σ : Type) where
  /-- Everything done, in order. -/
  moments : List Moment
  /-- When the last worker stopped. -/
  finishedAt : Nat
  /-- The state that the run leaves. -/
  state : σ

namespace Pool

variable {σ : Type}

/-- The first worker of a list whose phase ends no later than any other's, taken out of it. -/
def takeNext : List Worker → Option (Worker × List Worker)
  | [] => none
  | w :: rest =>
    match takeNext rest with
    | none => some (w, [])
    | some (earliest, others) =>
      if w.wake ≤ earliest.wake then some (w, rest) else some (earliest, w :: others)

/-- Lets workers act one after the other, at most `fuel` times. Workers that have stopped leave
the list; `latest` is when the last one did. -/
def runFor (c : Circumstances) (link : Link σ) : Nat → List Worker → Nat → σ → Run σ
  | 0, _, latest, state => ⟨[], latest, state⟩
  | fuel + 1, workers, latest, state =>
    match takeNext workers with
    | none => ⟨[], latest, state⟩
    | some (w, others) =>
      let (after, deeds, state) := w.advance c link state
      let run :=
        if after.isStopped then runFor c link fuel others (max latest after.wake) state
        else runFor c link fuel (others ++ [after]) latest state
      { run with moments := deeds.map (⟨w.wake, ·⟩) ++ run.moments }

/-- How often workers act at most: a round takes four steps at most and ends with a wait of a
millisecond or more unless the link had something for it. -/
def fuel (c : Circumstances) (link : Link σ) (workers : Nat) (state : σ) : Nat :=
  4 * (workers * (c.cancelAt + 2) + link.supply state)

/-- Runs workers from their start to their end. -/
def runWorkers (c : Circumstances) (link : Link σ) (workers : List Worker) (state : σ) : Run σ :=
  runFor c link (fuel c link workers.length state) workers 0 state

/-- Runs a pool with a number of workers; without any, only a warning is written. -/
def run (c : Circumstances) (link : Link σ) (power : Nat) (state : σ) : Run σ :=
  if power = 0 then ⟨[⟨0, .log .noWorkers⟩], 0, state⟩
  else
    let inner := runWorkers c link ((List.range power).map Worker.new) state
    { inner with
      moments := ⟨0, .log .agentStarted⟩ :: inner.moments ++
        [⟨inner.finishedAt, .log .agentStopped⟩] }

end Pool

/-- Runs one worker alone. -/
def Worker.run {σ : Type} (c : Circumstances) (link : Link σ) (id : Nat) (state : σ) : Run σ :=
  Pool.runWorkers c link [Worker.new id] state

/-- The scheduler as a link without delays; `size` counts the tasks of a state. An error of the
scheduler reaches the worker as a refusal. -/
def Scheduler.link {σ : Type} (handle : Handler σ) (size : σ → Nat) : Link σ where
  fetch state :=
    let reply := Scheduler.readTask.run handle state
    let outcome : Fetched :=
      match reply.answer with
      | .ok task => .ok (task.map Assignment.ofTask)
      | .error e => .error (.status 500 e.message)
    ((outcome, 0), reply.state)
  submit report state :=
    let reply := (Scheduler.completeTask report).run handle state
    let outcome : Submitted :=
      match reply.answer with
      | .ok _ => .ok ()
      | .error e => .error (.status 500 e.message)
    ((outcome, 0), reply.state)
  supply := size

end Reckoner
