import Reckoner.Message

/-!
# The link between a worker and the scheduler

A worker fetches assignments and submits reports over a link. A link answers each call after some
delay, and may fail. `Script` is a link that answers from lists; once these are used up, there are
no more tasks, and every report is taken.
-/

namespace Reckoner

/-- Why a call over the link failed. -/
inductive TransportError where
  /-- No answer came back. -/
  | request (text : String)
  /-- The answer was a refusal. -/
  | status (code : Nat) (text : String)
  /-- The answer could not be read. -/
  | codec (text : String)
deriving DecidableEq, Repr

/-- The sentence of a failed call. -/
def TransportError.message : TransportError → String
  | request text => "request failed: " ++ text
  | status code text =>
    "orchestrator responded with status " ++ toString code ++ ": " ++ text
  | codec text => "malformed payload: " ++ text

/-- The outcome of a fetch. -/
abbrev Fetched : Type := Except TransportError (Option Assignment)

/-- The outcome of a submission. -/
abbrev Submitted : Type := Except TransportError Unit

/-- What a link in a state of type `σ` answers, and after what delay in milliseconds. -/
structure Link (σ : Type) where
  fetch : σ → (Fetched × Nat) × σ
  submit : Report → σ → (Submitted × Nat) × σ
  /-- How many more fetches can have an outcome other than an empty answer, at most. -/
  supply : σ → Nat

/-- The answers of a link, laid down in advance. -/
structure Script where
  /-- The outcomes of the fetches, each with its delay. -/
  fetches : List (Fetched × Nat)
  /-- The outcomes of the submissions, each with its delay. -/
  submissions : List (Submitted × Nat)

namespace Script

/-- The next outcome of a fetch. -/
def fetch (script : Script) : (Fetched × Nat) × Script :=
  match script.fetches with
  | [] => ((.ok none, 0), script)
  | next :: rest => (next, { script with fetches := rest })

/-- The next outcome of a submission. -/
def submit (script : Script) : (Submitted × Nat) × Script :=
  match script.submissions with
  | [] => ((.ok (), 0), script)
  | next :: rest => (next, { script with submissions := rest })

/-- A script as a link. -/
def link : Link Script where
  fetch := fetch
  submit _ := submit
  supply script := script.fetches.length

end Script

/-- Lets the first submissions for some tasks fail: each entry is a task and how often it still
fails. -/
def Link.failing {σ : Type} (link : Link σ) (error : TransportError) :
    Link (σ × List (TaskId × Nat)) where
  fetch := fun (state, failures) =>
    let (outcome, after) := link.fetch state
    (outcome, (after, failures))
  submit := fun report (state, failures) =>
    match failures.find? fun (id, n) => id == report.id && n != 0 with
    | some _ =>
      let left := failures.map fun (id, n) => (id, if id = report.id then n - 1 else n)
      ((.error error, 0), (state, left))
    | none =>
      let (outcome, after) := link.submit report state
      (outcome, (after, failures))
  supply := fun (state, _) => link.supply state

end Reckoner
