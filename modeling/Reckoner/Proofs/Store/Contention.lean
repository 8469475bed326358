import Mathlib.Logic.Function.Basic
import Reckoner.Scheduler
import Reckoner.Store.Memory

/-!
# Many callers on one store

The store in memory has a lock. A transaction takes the lock when it is opened, works on its own
copy of the data one request at a time, and puts the copy in the place of the data when it commits;
the lock is free again once the transaction is closed. Any other access takes the lock as well. The
callers take turns in any order, and each of them may be dropped at any time before it has finished.
-/

namespace Reckoner

/-! ## The callers -/

/-- What a caller wants. -/
inductive Job where
  | read
  | complete (report : Report)
  | create (userId : UserId) (formula : String) (graph : TaskGraph)
  | get (id : ExpressionId) (userId : UserId)
  | list (userId : UserId)
  | tasks (id : ExpressionId)

/-- What a caller is answered. -/
def Job.Answer : Job → Type
  | read => Except SchedulerError (Option Task)
  | complete _ => Except SchedulerError Unit
  | create .. => Except StoreError Expression
  | get .. => Except StoreError (Option Expression)
  | list _ => Except StoreError (List Expression)
  | tasks _ => Except StoreError (List Task)

/-- How a job goes about the store. -/
inductive Work (α : Type) where
  /-- By a transaction. -/
  | transaction (call : Call α)
  /-- By a single access to the data. -/
  | access (act : Memory → α × Memory)

/-- The work of a job; `now` is when an expression is created. -/
def Job.work (now : Instant) : (job : Job) → Work job.Answer
  | read => .transaction Scheduler.readTask
  | complete report => .transaction (Scheduler.completeTask report)
  | create userId formula graph => .access fun m =>
    match Memory.store.create now userId formula graph m with
    | .ok (expression, after) => (.ok expression, after)
    | .error e => (.error e, m)
  | get id userId => .access fun m => (Memory.store.find id userId m, m)
  | list userId => .access fun m => (Memory.store.listByUser userId m, m)
  | tasks id => .access fun m => (Memory.store.listTasks id m, m)

/-- Work that nobody interferes with. -/
def Work.alone {α : Type} (now : Instant) : Work α → Memory → α × Memory
  | transaction call, m =>
    let reply := call.run (Memory.store.handle now) (.of m)
    (reply.answer, reply.state.committed)
  | access act, m => act m

/-- Any number of callers. -/
structure Callers (ι : Type) where
  /-- What each of them wants. -/
  job : ι → Job
  /-- The time that each of them reads off the clock. -/
  time : ι → Instant

namespace Callers

variable {ι : Type} (callers : Callers ι)

/-- The answer of a caller. -/
abbrev Answer (i : ι) : Type := (callers.job i).Answer

/-- What a caller does. -/
def work (i : ι) : Work (callers.Answer i) := (callers.job i).work (callers.time i)

/-- What a caller brings about that has the store for itself. -/
def alone (i : ι) (m : Memory) : callers.Answer i × Memory :=
  (callers.work i).alone (callers.time i) m

/-- The data behind some callers, one after the other. -/
def serial (order : List ι) (m : Memory) : Memory :=
  order.foldl (fun m i => (callers.alone i m).2) m

/-- One more caller. -/
theorem serial_concat (order : List ι) (i : ι) (m : Memory) :
    callers.serial (order ++ [i]) m = (callers.alone i (callers.serial order m)).2 :=
  List.foldl_append ..

end Callers

/-! ## Taking turns -/

/-- Where a caller is. -/
inductive Place (α : Type) where
  /-- It holds nothing; what it still has to do begins with a transaction or is nothing at all. -/
  | outside (rest : Call α)
  /-- It holds the lock and is in its transaction, with its own copy of the data. -/
  | inside (working : Memory) (rest : Call α)
  /-- It wants to access the data. -/
  | wanting (act : Memory → α × Memory)
  /-- It holds the lock for its access. -/
  | holding (act : Memory → α × Memory)
  /-- It has been dropped. -/
  | gone

namespace Place

variable {α : Type}

/-- The answer of a caller that has finished. -/
def answer? : Place α → Option α
  | outside (.done a) => some a
  | _ => none

/-- The work has not begun. -/
def ofWork : Work α → Place α
  | .transaction call => .outside call
  | .access act => .wanting act

end Place

/-- Whether a request closes the transaction. -/
def Request.closes : Request → Bool
  | commit | rollback => true
  | _ => false

/-- A store on which callers take turns. -/
structure Shared {ι : Type} (callers : Callers ι) where
  /-- The data. -/
  committed : Memory
  /-- Who holds the lock. -/
  holder : Option ι
  /-- Where each caller is. -/
  place : (i : ι) → Place (callers.Answer i)
  /-- Who has taken the lock, the first one first. -/
  order : List ι

/-- What happens next. -/
inductive Move (ι : Type) where
  /-- A caller does its next step, if it can. -/
  | advance (i : ι)
  /-- A caller is dropped, unless it has finished. -/
  | drop (i : ι)

namespace Shared

variable {ι : Type} [DecidableEq ι] {callers : Callers ι}

/-- Nobody has begun. -/
def start (callers : Callers ι) (m : Memory) : Shared callers where
  committed := m
  holder := none
  place i := .ofWork (callers.work i)
  order := []

/-- A caller has got somewhere. -/
def move (s : Shared callers) (i : ι) (place : Place (callers.Answer i)) : Shared callers :=
  { s with place := Function.update s.place i place }

/-- A caller takes the lock if it is free. -/
def take (s : Shared callers) (i : ι) (place : Place (callers.Answer i)) : Shared callers :=
  match s.holder with
  | none => { s.move i place with holder := some i, order := s.order ++ [i] }
  | some _ => s

/-- A caller gives the lock back and leaves these data. -/
def release (s : Shared callers) (i : ι) (committed : Memory)
    (place : Place (callers.Answer i)) : Shared callers :=
  { s.move i place with committed, holder := none }

/-- The next step of a caller. -/
def advance (s : Shared callers) (i : ι) : Shared callers :=
  match s.place i with
  | .outside (.note _ rest) => s.move i (.outside rest)
  | .outside (.ask .begin next) =>
    let (opened, state) := Memory.store.handle (callers.time i) .begin (.of s.committed)
    s.take i (.inside state.working (next opened))
  | .inside working (.note _ rest) => s.move i (.inside working rest)
  | .inside working (.ask request next) =>
    let (answer, state) := Memory.store.handle (callers.time i) request ⟨s.committed, working⟩
    if request.closes then s.release i state.committed (.outside (next answer))
    else s.move i (.inside state.working (next answer))
  | .inside _ (.done a) => s.release i s.committed (.outside (.done a))
  | .wanting act => s.take i (.holding act)
  | .holding act =>
    let (a, after) := act s.committed
    s.release i after (.outside (.done a))
  | .outside _ | .gone => s

/-- A caller is dropped; if it holds the lock, the lock is free again. -/
def abandon (s : Shared callers) (i : ι) : Shared callers :=
  match (s.place i).answer? with
  | some _ => s
  | none => { s.move i .gone with holder := s.holder.filter (· ≠ i) }

/-- What a move makes of the store. -/
def step (s : Shared callers) : Move ι → Shared callers
  | .advance i => s.advance i
  | .drop i => s.abandon i

/-- The store behind a schedule. -/
def after (callers : Callers ι) (m : Memory) (schedule : List (Move ι)) : Shared callers :=
  schedule.foldl step (start callers m)

/-- Those who have finished, in the order in which they took the lock. -/
def served (s : Shared callers) : List ι := s.order.filter fun i => (s.place i).answer?.isSome

end Shared

end Reckoner
