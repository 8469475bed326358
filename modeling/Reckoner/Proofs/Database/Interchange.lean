import Reckoner.Proofs.Database.Service

/-!
# A database in the place of a memory

Users submit formulas and look at what they have submitted, and workers claim tasks and report on
them, whatever they report. A database answers all of this as a memory does: each call keeps it
standing for a memory, and so does any number of calls. Only two things tell them apart, the times
of their clocks and the sign of a zero, which a database does not keep.
-/

namespace Reckoner

/-- The answers to calls from outside. -/
inductive Answer where
  | expression (answer : Except ExpressionError Expression)
  | expressions (answer : Except ExpressionError (List Expression))
  | tasks (answer : Except ExpressionError (List Task))
  | claim (answer : Except SchedulerError (Option Task))
  | report (answer : Except SchedulerError Unit)
deriving DecidableEq

/-- Calls from outside: those of users, and those of workers. -/
inductive Act where
  | submit (userId : UserId) (formula : String)
  | get (userId : UserId) (id : ExpressionId)
  | list (userId : UserId)
  | tasks (userId : UserId) (id : ExpressionId)
  | read
  | complete (report : Report)

/-- What a store answers to a call, and what it comes to. -/
def Act.run {δ : Type} (store : Store δ) (now : Instant) (data : δ) : Act → Answer × δ
  | submit userId formula =>
    let reply := Service.submit store now userId formula data
    (.expression reply.answer, reply.state)
  | get userId id => (.expression (Service.get store userId id data), data)
  | list userId => (.expressions (Service.list store userId data), data)
  | tasks userId id => (.tasks (Service.tasks store userId id data), data)
  | read =>
    let reply := Scheduler.readTask.run (store.handle now) (.of data)
    (.claim reply.answer, reply.state.committed)
  | complete report =>
    let reply := (Scheduler.completeTask report).run (store.handle now) (.of data)
    (.report reply.answer, reply.state.committed)

/-- What a store answers to calls one after the other, each at its time. -/
def Store.answers {δ : Type} (store : Store δ) (clock : Nat → Instant) (data : δ) :
    List Act → List Answer
  | [] => []
  | act :: rest =>
    let reply := act.run store (clock 0) data
    reply.1 :: store.answers (fun k => clock (k + 1)) reply.2 rest

namespace Answer

/-- The answer without times. -/
def timeless : Answer → Answer
  | expression answer => expression (answer.map Expression.timeless)
  | expressions answer => expressions (answer.map fun es => es.map Expression.timeless)
  | answer => answer

/-- The answer with other numbers. -/
def mapNumbers (f : Binary64 → Binary64) : Answer → Answer
  | expression answer => expression (answer.map (·.mapNumbers f))
  | expressions answer => expressions (answer.map fun es => es.map (·.mapNumbers f))
  | tasks answer => tasks (answer.map fun ts => ts.map (·.mapNumbers f))
  | claim answer => claim (answer.map fun t => t.map (·.mapNumbers f))
  | report answer => report answer

end Answer

/-! ## Single calls -/

/-- A database that stands in for a memory in order; its zeros have no sign. -/
structure StandsFor (users : List UserRow) (db : Database) (m : Memory) : Prop where
  shows : db.Shows users (m.mapNumbers Binary64.plain)
  orderly : m.Orderly

/-- A user that submits a formula is one of these. -/
def Act.By (users : List UserRow) : Act → Prop
  | submit userId _ => ∃ user ∈ users, user.id = userId
  | _ => True

/-- The answers are the same, times apart, but for the signs of zeros in the second one. -/
def Answer.Agrees (answer other : Answer) : Prop :=
  answer.timeless = (other.mapNumbers Binary64.plain).timeless

namespace StandsFor

variable {users : List UserRow} {db : Database} {m : Memory}

/-- The rows in memory belong together, whatever the signs of its zeros. -/
theorem joined (h : StandsFor users db m) : (m.mapNumbers Binary64.plain).Joined :=
  h.orderly.joined.mapNumbers _

/-- A formula is submitted. -/
theorem submit (h : StandsFor users db m) {now : Instant} (hnow : now.Storable) (other : Instant)
    {userId : UserId} (huser : ∃ user ∈ users, user.id = userId) (formula : String) :
    let reply := Act.run Database.store now db (.submit userId formula)
    let expected := Act.run Memory.store other m (.submit userId formula)
    reply.1.Agrees expected.1 ∧ StandsFor users reply.2 expected.2 := by
  simp only [Act.run, Service.submit]
  cases hgraph : Formula.compile formula with
  | error e => exact ⟨rfl, h⟩
  | ok graph =>
    have hshaped := Formula.shaped_of_compile hgraph
    have horderly := h.orderly.create other userId hgraph
    have hcreate := @Memory.create_mapNumbers m Binary64.plain graph hshaped
      (fun node hnode slot value hvalue =>
        (Binary64.of_stored? (Formula.stored?_of_compile hgraph hnode hvalue)).2)
      other userId formula
    obtain ⟨e, after, heq, htimeless, hafter⟩ := h.shows.tables.create hnow other huser hgraph
      (by rw [hcreate]; exact (horderly.joined.mapNumbers _).toNumbered)
      (by rw [hcreate]; exact horderly.closed.mapNumbers _)
    rw [hcreate] at htimeless hafter
    have hwrite : Database.store.create now userId formula graph db =
        .ok (e, { db with tables := after }) := by
      simp only [Database.store, Database.write, h.shows.writable, if_true, heq]
      rfl
    simp only [hwrite]
    refine ⟨congrArg (fun e => Answer.expression (.ok e)) htimeless, ⟨?_, horderly⟩⟩
    exact ⟨h.shows.readable, h.shows.writable, hafter⟩

/-- A task is claimed. -/
theorem read (h : StandsFor users db m) {now : Instant} (hnow : now.Storable) (other : Instant) :
    let reply := Act.run Database.store now db .read
    let expected := Act.run Memory.store other m .read
    reply.1.Agrees expected.1 ∧ StandsFor users reply.2 expected.2 := by
  obtain ⟨events, after, hrun, hafter⟩ :=
    Scheduler.readTask_backed (Database.backing users now hnow) h.joined h.shows
  obtain ⟨others, hother⟩ := Scheduler.readTask_run other h.orderly.joined
  rw [Memory.claim_mapNumbers] at hrun hafter
  have hrun : Scheduler.readTask.run (Database.store.handle now) (.of db) = _ := hrun
  simp only [Act.run, hrun, hother]
  exact ⟨rfl, hafter, h.orderly.claim⟩

/-- A report is taken. -/
theorem complete (h : StandsFor users db m) {now : Instant} (hnow : now.Storable) (other : Instant)
    (report : Report) :
    let reply := Act.run Database.store now db (.complete report)
    let expected := Act.run Memory.store other m (.complete report)
    reply.1.Agrees expected.1 ∧ StandsFor users reply.2 expected.2 := by
  obtain ⟨events, after, hrun, hafter⟩ :=
    Scheduler.completeTask_backed (Database.backing users now hnow) h.joined h.shows report
  obtain ⟨others, hother⟩ := Scheduler.completeTask_run other h.orderly.joined report
  have hafter : after.Shows users ((m.mapNumbers Binary64.plain).apply
    (report.mapNumbers Binary64.plain)) := hafter
  rw [m.apply_mapNumbers Binary64.plain nonFiniteError_plain] at hafter
  have hrun : (Scheduler.completeTask report).run (Database.store.handle now) (.of db) = _ := hrun
  simp only [Act.run, hrun, hother]
  exact ⟨rfl, hafter, h.orderly.apply report⟩

/-- An expression is looked at: there is none, or there are two that differ in nothing but times and
the sign of a zero. -/
theorem get_cases (h : StandsFor users db m) (userId : UserId) (id : ExpressionId) :
    (Service.get Database.store userId id db = .error .notFound ∧
      Service.get Memory.store userId id m = .error .notFound) ∨
    ∃ d e, Service.get Database.store userId id db = .ok d ∧
      Service.get Memory.store userId id m = .ok e ∧
      d.timeless = (e.mapNumbers Binary64.plain).timeless := by
  obtain ⟨found, hfound, htimeless⟩ := h.shows.tables.find id userId
  have hread : Database.store.find id userId db = .ok found := by
    simp only [Database.store, Database.read, h.shows.readable, if_true, hfound]
  have hlook : Memory.store.find id userId m =
      .ok ((m.expression? id).filter (·.userId == userId)) := rfl
  have hmap : ((m.mapNumbers Binary64.plain).expression? id).filter (·.userId == userId) =
      ((m.expression? id).filter (·.userId == userId)).map (·.mapNumbers Binary64.plain) := by
    rw [Memory.expression?_mapNumbers, Option.filter_map]
    rfl
  rw [hmap] at htimeless
  unfold Service.get
  rw [hread, hlook]
  generalize (m.expression? id).filter (·.userId == userId) = seen at htimeless ⊢
  cases seen with
  | none =>
    obtain rfl : found = none := Option.map_eq_none_iff.mp htimeless
    exact Or.inl ⟨rfl, rfl⟩
  | some e =>
    obtain ⟨d, rfl, hd⟩ := Option.map_eq_some_iff.mp htimeless
    exact Or.inr ⟨d, e, rfl, rfl, hd⟩

/-- Looking at an expression. -/
theorem get (h : StandsFor users db m) (userId : UserId) (id : ExpressionId) :
    (Answer.expression (Service.get Database.store userId id db)).Agrees
      (.expression (Service.get Memory.store userId id m)) := by
  rcases h.get_cases userId id with ⟨hnone, hnone'⟩ | ⟨d, e, hd, he, hsame⟩
  · rw [hnone, hnone']
    rfl
  · rw [hd, he]
    exact congrArg (fun e => Answer.expression (.ok e)) hsame

/-- Looking at all expressions of a user. -/
theorem list (h : StandsFor users db m) (userId : UserId) :
    (Answer.expressions (Service.list Database.store userId db)).Agrees
      (.expressions (Service.list Memory.store userId m)) := by
  obtain ⟨es, hes, htimeless⟩ := h.shows.tables.listByUser userId
  have hread : Service.list Database.store userId db = .ok es := by
    simp only [Service.list, Database.store, Database.read, h.shows.readable, if_true, hes]
    rfl
  have hmap : (m.mapNumbers Binary64.plain).expressions.reverse.filter (·.userId == userId) =
      (m.expressions.reverse.filter (·.userId == userId)).map (·.mapNumbers Binary64.plain) := by
    change ((m.expressions.map _).reverse.filter _) = _
    rw [← List.map_reverse, List.filter_map]
    rfl
  rw [hmap] at htimeless
  rw [hread]
  exact congrArg (fun es => Answer.expressions (.ok es)) htimeless

/-- Looking at the tasks of an expression. -/
theorem tasks (h : StandsFor users db m) (userId : UserId) (id : ExpressionId) :
    (Answer.tasks (Service.tasks Database.store userId id db)).Agrees
      (.tasks (Service.tasks Memory.store userId id m)) := by
  unfold Service.tasks
  rcases h.get_cases userId id with ⟨hnone, hnone'⟩ | ⟨d, e, hd, he, hsame⟩
  · rw [hnone, hnone']
    rfl
  · have hid : d.timeless.id = e.id := by
      rw [hsame]
      rfl
    have hread : Database.store.listTasks e.id db =
        .ok ((m.tasksOf e.id).map (·.mapNumbers Binary64.plain)) := by
      simp only [Database.store, Database.read, h.shows.readable, if_true, Tables.listTasks,
        h.shows.tables.mapM_tasksOf, Memory.tasksOf_mapNumbers]
    rw [hd, he]
    change (Answer.tasks ((Database.store.listTasks d.timeless.id db).mapError _)).Agrees _
    rw [hid, hread]
    rfl

/-- Every call is answered alike, and leaves a database that stands for the memory. -/
theorem run (h : StandsFor users db m) {now : Instant} (hnow : now.Storable) (other : Instant)
    {act : Act} (hact : act.By users) :
    (act.run Database.store now db).1.Agrees (act.run Memory.store other m).1 ∧
      StandsFor users (act.run Database.store now db).2 (act.run Memory.store other m).2 := by
  cases act with
  | submit userId formula => exact h.submit hnow other hact formula
  | get userId id => exact ⟨h.get userId id, h⟩
  | list userId => exact ⟨h.list userId, h⟩
  | tasks userId id => exact ⟨h.tasks userId id, h⟩
  | read => exact h.read hnow other
  | complete report => exact h.complete hnow other report

end StandsFor

/-! ## Sequences of calls -/

/-- From a database that stands for a memory on, all calls are answered alike. -/
theorem StandsFor.answers {users : List UserRow} {db : Database} {m : Memory}
    (h : StandsFor users db m) {clock other : Nat → Instant} (hclock : ∀ k, (clock k).Storable)
    {acts : List Act} (hacts : ∀ act ∈ acts, act.By users) :
    List.Forall₂ Answer.Agrees (Database.store.answers clock db acts)
      (Memory.store.answers other m acts) := by
  induction acts generalizing db m clock other with
  | nil => exact .nil
  | cons act rest ih =>
    obtain ⟨hact, hrest⟩ := List.forall_mem_cons.mp hacts
    obtain ⟨hagrees, hnext⟩ := h.run (hclock 0) (other 0) hact
    exact .cons hagrees (ih hnext (fun k => hclock (k + 1)) hrest)

/-- Tables in which users may be, but nothing has been submitted. -/
structure Tables.Unused (t : Tables) : Prop where
  expressions_eq : t.expressions = []
  tasks_eq : t.tasks = []
  lastExpression_eq : t.lastExpression = 0
  lastTask_eq : t.lastTask = 0

/-- A database in which nothing has been submitted stands for the empty memory. -/
theorem Tables.Unused.standsFor {t : Tables} (h : t.Unused) :
    StandsFor t.users (.ofTables t) .empty := by
  refine ⟨⟨rfl, rfl, rfl, ?_, ?_, h.lastExpression_eq, h.lastTask_eq, ?_, ?_, ?_⟩, .empty⟩
  · change List.Forall₂ _ t.expressions []
    rw [h.expressions_eq]
    exact .nil
  · change List.Forall₂ _ t.tasks []
    rw [h.tasks_eq]
    exact .nil
  · change t.tasks.Pairwise _
    rw [h.tasks_eq]
    exact .nil
  · exact (Memory.Orderly.empty.joined.mapNumbers _).toNumbered
  · exact Memory.Orderly.empty.closed.mapNumbers _

/-- **A database is as good as a memory.** On tables in which nothing has been submitted, calls of
users who are there and of workers, whatever these report, are answered one after the other as by an
empty memory; times are left out, and a zero from the database has no sign. -/
theorem Database.answers_agree {t : Tables} (hunused : t.Unused) {clock other : Nat → Instant}
    (hclock : ∀ k, (clock k).Storable) {acts : List Act} (hacts : ∀ act ∈ acts, act.By t.users) :
    List.Forall₂ Answer.Agrees (Database.store.answers clock (.ofTables t) acts)
      (Memory.store.answers other .empty acts) :=
  hunused.standsFor.answers hclock hacts

/-- Tables with one user. -/
def Tables.sample : Tables := { Tables.empty with users := [⟨1, "ada"⟩], lastUser := 1 }

/-- A formula is submitted, its only task is reported to have a negative zero as its result, and the
user looks at what has become of it. -/
def Act.sample : List Act :=
  [.submit 1 "1+1", .read, .tasks 1 1, .complete (.success 1 1 Binary64.zero.negate), .get 1 1,
    .list 1]

/-- The sample calls are answered alike. -/
theorem Database.answers_agree_sample :
    Tables.sample.Unused ∧ (default : Instant).Storable ∧
      (∀ act ∈ Act.sample, act.By Tables.sample.users) ∧
      List.Forall₂ Answer.Agrees
        (Database.store.answers (fun _ => default) (.ofTables Tables.sample) Act.sample)
        (Memory.store.answers (fun _ => default) .empty Act.sample) := by
  have hunused : Tables.sample.Unused := ⟨rfl, rfl, rfl, rfl⟩
  have hclock : (default : Instant).Storable := ⟨by decide, by decide, by decide⟩
  have hacts : ∀ act ∈ Act.sample, act.By Tables.sample.users := by
    simp [Act.sample, Act.By, Tables.sample]
  exact ⟨hunused, hclock, hacts, Database.answers_agree hunused (fun _ => hclock) hacts⟩

/-- The first instant of the year 10000. -/
def Instant.fiveDigitYear : Instant := ⟨253402300800, 0⟩

/-- A negative zero comes back from the database without its sign, and an expression that has been
submitted after the year 9999 cannot be read at all. -/
theorem Database.answers_differ :
    (Database.store.answers (fun _ => default) (.ofTables Tables.sample) Act.sample).map
        Answer.timeless ≠
      (Memory.store.answers (fun _ => default) .empty Act.sample).map Answer.timeless ∧
    (Database.store.answers (fun _ => .fiveDigitYear) (.ofTables Tables.sample)
        [.submit 1 "1+1", .get 1 1]).map Answer.timeless ≠
      (Memory.store.answers (fun _ => .fiveDigitYear) .empty [.submit 1 "1+1", .get 1 1]).map
        Answer.timeless := by
  decide +kernel

end Reckoner
