import Reckoner.Proofs.Scheduler.Past
import Reckoner.Proofs.Wire.Message
import Reckoner.Rpc.Server

/-!
# Scheduler calls over the network

An endpoint runs a scheduler call and answers with what the call answered; the client reads it back
from the message. What a client gets and what is stored behind that are therefore the same as for
the call itself, on any store. The assignment with number zero is no exception: tasks are numbered
from one on.
-/

namespace Reckoner.Rpc

open Wire

variable {σ : Type} {handle : Handler σ} {state : σ} {client : Client}

/-! ## Endpoints -/

/-- What is answered to a worker who asks for a task. -/
def Answer.ofClaim : Except SchedulerError (Option Task) → Answer
  | .error e => .ofError e
  | .ok claimed => .message ((claimed.map Assignment.ofTask).getD Assignment.none).encode

/-- What is answered to a worker who has submitted a report. -/
def Answer.ofSubmission : Except SchedulerError Unit → Answer
  | .error e => .ofError e
  | .ok _ => .message []

/-- Handing out a task is claiming one. -/
theorem run_fetchTask (handle : Handler σ) (state : σ) :
    fetchTask.run handle state =
      let direct := Scheduler.readTask.run handle state
      ⟨.ofClaim direct.answer, direct.events, direct.state⟩ := by
  change (Call.bind Scheduler.readTask _).run handle state = _
  rw [Call.run_bind]
  obtain ⟨answer, events, after⟩ := Scheduler.readTask.run handle state
  rcases answer with e | _ | task <;> simp [Call.run, Pure.pure, Answer.ofClaim]

/-- Taking a body is completing the task of the report in it. -/
theorem run_submitResult {body : List UInt8} {report : Report}
    (hreport : Report.decode? body = some report) (handle : Handler σ) (state : σ) :
    (submitResult body).run handle state =
      let direct := (Scheduler.completeTask report).run handle state
      ⟨.ofSubmission direct.answer, direct.events, direct.state⟩ := by
  rw [submitResult, hreport]
  change (Call.bind (Scheduler.completeTask report) _).run handle state = _
  rw [Call.run_bind]
  obtain ⟨answer, events, after⟩ := (Scheduler.completeTask report).run handle state
  cases answer <;> simp [Call.run, Pure.pure, Answer.ofSubmission]

/-- A body that is not too long is given to the endpoint as it is. -/
theorem serve_submit {body : List UInt8} (hlength : body.length ≤ bodyLimit) (handle : Handler σ)
    (state : σ) :
    serve handle ⟨submitPath, body⟩ state =
      let reply := (submitResult body).run handle state
      (.answered reply.answer.status reply.answer.body, reply.state) := by
  have hpath : submitPath ≠ fetchPath := by decide
  simp only [serve, endpoint?, hpath, if_false, if_true, Nat.not_lt.mpr hlength]

/-- A body that is no report is refused and changes nothing. -/
theorem serve_malformed {body : List UInt8} (hlength : body.length ≤ bodyLimit)
    (hbody : Report.decode? body = none) (handle : Handler σ) (state : σ) :
    ∃ text, serve handle ⟨submitPath, body⟩ state = (.answered 400 text, state) := by
  rw [serve_submit hlength, submitResult, hbody]
  exact ⟨_, rfl⟩

/-- A body that is too long is refused and changes nothing. -/
theorem serve_tooLong {body : List UInt8} (hlength : bodyLimit < body.length) (handle : Handler σ)
    (state : σ) : ∃ text, serve handle ⟨submitPath, body⟩ state = (.answered 413 text, state) := by
  have hpath : submitPath ≠ fetchPath := by decide
  simp only [serve, endpoint?, hpath, if_false, if_true, hlength]
  exact ⟨_, rfl⟩

/-! ## Clients -/

/-- The client has the address of the orchestrator. -/
structure Client.Reaches (client : Client) : Prop where
  fetch : target? (client.base ++ fetchPath) = some fetchPath
  submit : target? (client.base ++ submitPath) = some submitPath

/-- A client who asks for a task leaves what a claim leaves, and reads the answer to it. -/
theorem Client.fetch_serve (h : client.Reaches) (handle : Handler σ) (state : σ) :
    client.fetch (serve handle) state =
      let direct := Scheduler.readTask.run handle state
      let answer := Answer.ofClaim direct.answer
      ((readOutcome (.answered answer.status answer.body)).bind readAssignment, direct.state) := by
  simp only [fetch, call, post?, h.fetch, Option.map_some, serve, endpoint?, if_true,
    run_fetchTask]

/-- A client who submits a report leaves what the report leaves, and reads the answer to it. -/
theorem Client.submit_serve (h : client.Reaches) {report : Report} (hid : IsInt64 report.id)
    (hexpression : IsInt64 report.expressionId) (hlength : report.encode.length ≤ bodyLimit)
    (handle : Handler σ) (state : σ) :
    client.submit report (serve handle) state =
      let direct := (Scheduler.completeTask report).run handle state
      let answer := Answer.ofSubmission direct.answer
      ((readOutcome (.answered answer.status answer.body)).map fun _ => (), direct.state) := by
  -- What fits into a body is short enough to be written with its length in front.
  have herror : (Text.toBytes report.error).length < 0x100000000 :=
    Nat.lt_of_le_of_lt (Nat.le_trans report.length_error_le hlength) (by decide)
  have hreport : Report.decode? report.encode = some report := by
    simpa using Report.decode?_encode_append hid hexpression herror []
  simp only [submit, call, post?, h.submit, Option.map_some, serve_submit hlength,
    run_submitResult hreport]

/-- That there is no task is read as such. -/
theorem readAssignment_none :
    Client.readAssignment Assignment.none.encode = .ok none := by
  simp only [Client.readAssignment, Assignment.decode?_encode_none]
  rfl

/-- The assignment of a task is read as such, unless its number is zero. -/
theorem readAssignment_ofTask {task : Task} (hid : IsInt64 task.id)
    (hexpression : IsInt64 task.expressionId) (hne : task.id ≠ 0) :
    Client.readAssignment (Assignment.ofTask task).encode = .ok (some (.ofTask task)) := by
  have hnone : (Assignment.ofTask task).isNone = false := beq_false_of_ne hne
  simp only [Client.readAssignment, Assignment.decode?_encode_ofTask hid hexpression, hnone,
    Bool.false_eq_true, if_false]

/-- A claimed task is read from the answer to the claim. -/
theorem read_ofClaim {claimed : Option Task}
    (hclaimed : ∀ t ∈ claimed, IsInt64 t.id ∧ IsInt64 t.expressionId ∧ t.id ≠ 0) :
    let answer := Answer.ofClaim (.ok claimed)
    (Client.readOutcome (.answered answer.status answer.body)).bind Client.readAssignment =
      .ok (claimed.map .ofTask) := by
  cases claimed with
  | none => exact readAssignment_none
  | some task =>
    obtain ⟨hid, hexpression, hne⟩ := hclaimed task rfl
    exact readAssignment_ofTask hid hexpression hne

/-! ## Courses -/

/-- A task that is claimed has a number from one on, and so has its expression. -/
theorem claimed_bounds {course : Course} {k : Nat} {t : Task}
    (hlast : (course.memory k).lastTask < 0x8000000000000000)
    (ht : (course.memory k).claim.1 = some t) :
    IsInt64 t.id ∧ IsInt64 t.expressionId ∧ 0 < t.id := by
  obtain hnone | ⟨u, hu, hclaims⟩ := Memory.claim_cases (course.numbered k)
  · rw [hnone] at ht
    cases ht
  · obtain rfl := Option.some.inj (hu.symm.trans ht)
    obtain ⟨s, hs, -, hgrows⟩ := hclaims.source
    obtain ⟨hpositive, howner⟩ := Course.task_positive hs
    obtain ⟨hle, hownerLe⟩ := Course.task_le_last hs
    rw [hgrows.id_eq, hgrows.expressionId_eq]
    have hint64 : ∀ n : Int, 0 < n → n ≤ (course.memory k).lastTask → IsInt64 n :=
      fun n hn hle => ⟨Int.le_trans (by decide) (Int.le_of_lt hn), Int.lt_of_le_of_lt hle hlast⟩
    exact ⟨hint64 _ hpositive hle, hint64 _ howner hownerLe, hpositive⟩

/-- **Over the network the calls are the same.** Whatever has been submitted, asked for and
reported, a client who asks for a task gets the number, the operands, the symbol and the expression
of the task that the scheduler claims on the same store, and none if it claims none; the number is
never zero, so that a claimed task is not taken for none. A report that the client submits, whatever
it says, is applied as by the scheduler if its body is delivered. A body that is delivered and is no
report is answered by status 400, and one that is too long to be delivered by status 413; neither
changes anything. Numbers of tasks and expressions are those of 64 bits. -/
theorem network_refines_calls (course : Course) (k : Nat) (now : Instant) (hclient : client.Reaches)
    (hlast : (course.memory k).lastTask < 0x8000000000000000) :
    let handle := Memory.store.handle now
    let stored := Transacted.of (course.memory k)
    (∃ claimed, (Scheduler.readTask.run handle stored).answer = .ok claimed ∧
      client.fetch (serve handle) stored =
        (.ok (claimed.map fun t => ⟨t.id, t.args, t.operation.symbol, t.expressionId, ""⟩),
          (Scheduler.readTask.run handle stored).state) ∧
      ∀ t ∈ claimed, 0 < t.id) ∧
    (∀ report : Report, IsInt64 report.id → IsInt64 report.expressionId →
      report.encode.length ≤ bodyLimit →
      client.submit report (serve handle) stored =
        (.ok (), ((Scheduler.completeTask report).run handle stored).state)) ∧
    ∀ body : List UInt8,
      (body.length ≤ bodyLimit → Report.decode? body = none →
        ∃ text, serve handle ⟨submitPath, body⟩ stored = (.answered 400 text, stored)) ∧
      (bodyLimit < body.length →
        ∃ text, serve handle ⟨submitPath, body⟩ stored = (.answered 413 text, stored)) := by
  intro handle stored
  have hjoined := (course.orderly k).joined
  refine ⟨?_, fun report hid hexpression hlength => ?_,
    fun body => ⟨fun hlength hbody => ?_, fun hlength => ?_⟩⟩
  · obtain ⟨events, hrun⟩ := Scheduler.readTask_run now hjoined
    have hread := @read_ofClaim (course.memory k).claim.1 fun t ht => by
      obtain ⟨hid, hexpression, hpositive⟩ := claimed_bounds hlast ht
      exact ⟨hid, hexpression, Int.ne_of_gt hpositive⟩
    refine ⟨(course.memory k).claim.1, by rw [hrun], ?_,
      fun t ht => (claimed_bounds hlast ht).2.2⟩
    rw [Client.fetch_serve hclient, hrun]
    exact congrArg (·, _) hread
  · obtain ⟨events, hrun⟩ := Scheduler.completeTask_run now hjoined report
    rw [Client.submit_serve hclient hid hexpression hlength, hrun]
    rfl
  · exact serve_malformed hlength hbody handle stored
  · exact serve_tooLong hlength handle stored

/-- In the sample a client is handed the inner minus of the first formula. What it reports on it
without asking is dropped, and a byte that begins no message is refused. -/
theorem network_refines_calls_sample :
    let client : Client := ⟨"http://127.0.0.1:8080"⟩
    let peer := serve (Memory.store.handle ⟨0, 0⟩)
    let stored := Transacted.of (Course.sample.memory 4)
    client.Reaches ∧ (Course.sample.memory 4).lastTask < 0x8000000000000000 ∧
      (client.fetch peer stored).1 =
        .ok (some ⟨1, ⟨some ⟨0x4000000000000000⟩, none⟩, "~", 1, ""⟩) ∧
      client.submit (.success 1 1 ⟨0⟩) peer stored = (.ok (), stored) ∧
      ∃ text, peer ⟨submitPath, [0xc1]⟩ stored = (.answered 400 text, stored) := by
  intro client peer stored
  have hclient : client.Reaches := ⟨by decide +kernel, by decide +kernel⟩
  have hlast : (Course.sample.memory 4).lastTask < 0x8000000000000000 := by decide +kernel
  obtain ⟨⟨claimed, hanswer, hfetch, -⟩, hsubmit, hbody⟩ :=
    network_refines_calls Course.sample 4 ⟨0, 0⟩ hclient hlast
  refine ⟨hclient, hlast, ?_, ?_, (hbody [0xc1]).1 (by decide) (by decide)⟩
  · have hclaimed : Course.sample.answer 4 = .ok (some
        ⟨1, 1, .negate, ⟨some ⟨0x4000000000000000⟩, none⟩, ⟨none, none⟩, .processing, none⟩) := by
      decide +kernel
    obtain rfl := Except.ok.inj (hanswer.symm.trans hclaimed)
    rw [hfetch]
    rfl
  · obtain ⟨events, hrun⟩ := Scheduler.completeTask_run ⟨0, 0⟩ (Course.sample.orderly 4).joined
      (.success 1 1 ⟨0⟩)
    rw [hsubmit (.success 1 1 ⟨0⟩) (by decide) (by decide) (by decide +kernel), hrun,
      Memory.apply_eq_self (by decide +kernel)]

end Reckoner.Rpc
