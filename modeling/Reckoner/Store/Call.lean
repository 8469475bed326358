import Reckoner.Event
import Reckoner.Store.Query

/-!
# Calls on the store

A call is a tree: it asks the store for something and goes on with the answer, writes an event to
the log, or is done. What the store does with a request is not part of a call; a handler says so
when the call is run. The same call can thus be run on any store, with faults, or one request at
a time.
-/

namespace Reckoner

/-- A computation that puts requests to the store. -/
inductive Call (α : Type) where
  | done (value : α)
  /-- Writes an event to the log. -/
  | note (event : Event) (rest : Call α)
  /-- Asks the store, and goes on with its answer or its error. -/
  | ask (request : Request) (next : Except StoreError request.Answer → Call α)

/-- What a run brings about: an answer, the events on the way, and the state it leaves. -/
structure Reply (α σ : Type) where
  /-- The answer. -/
  answer : α
  /-- The events, the first one first. -/
  events : List Event
  /-- The state afterwards. -/
  state : σ

/-- How requests are met in a state of type `σ`. -/
def Handler (σ : Type) : Type := (request : Request) → σ → Except StoreError request.Answer × σ

namespace Call

variable {α β σ : Type}

/-- Goes on with the value of a call. -/
def bind : Call α → (α → Call β) → Call β
  | done value, f => f value
  | note event rest, f => note event (rest.bind f)
  | ask request next, f => ask request fun answer => (next answer).bind f

instance : Monad Call where
  pure := done
  bind := bind

/-- Runs a call in a state. -/
def run (handle : Handler σ) : Call α → σ → Reply α σ
  | done value, state => ⟨value, [], state⟩
  | note event rest, state =>
    let reply := rest.run handle state
    { reply with events := event :: reply.events }
  | ask request next, state =>
    let (answer, after) := handle request state
    (next answer).run handle after

/-- A run of two calls in a row is the run of the second one from where the first one ends. -/
theorem run_bind (handle : Handler σ) (call : Call α) (f : α → Call β) (state : σ) :
    (call.bind f).run handle state =
      let first := call.run handle state
      let second := (f first.answer).run handle first.state
      ⟨second.answer, first.events ++ second.events, second.state⟩ := by
  induction call generalizing state with
  | done value => rfl
  | note event rest ih => simp [bind, run, ih]
  | ask request next ih => simp [bind, run, ih]

end Call

end Reckoner
