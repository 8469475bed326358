import Reckoner.Proofs.Worker.Trace

/-!
# The calls of a worker, by number

A script answers the fetches of a worker in their order, and the submissions in theirs. So the
outcome that a worker waits for is the answer of the number of its call, and it is there at the turn
after the call, unless the worker is cancelled before.
-/

namespace Reckoner

variable {σ : Type}

/-! ## The answers of a script, by number -/

namespace Script

/-- The answer to the fetch of a number: no task once the script is used up. -/
def fetchAnswer (script : Script) (k : Nat) : Fetched × Nat :=
  script.fetches[k]?.getD (.ok none, 0)

/-- The answer to the submission of a number: the report is taken once the script is used up. -/
def submitAnswer (script : Script) (k : Nat) : Submitted × Nat :=
  script.submissions[k]?.getD (.ok (), 0)

/-- What is left of a script after some fetches and some submissions. -/
def after (script : Script) (fetched submitted : Nat) : Script :=
  ⟨script.fetches.drop fetched, script.submissions.drop submitted⟩

/-- The next fetch gets the answer of its number. -/
theorem fetch_after (script : Script) (fetched submitted : Nat) :
    (script.after fetched submitted).fetch =
      (script.fetchAnswer fetched, script.after (fetched + 1) submitted) := by
  obtain hlt | hle := Nat.lt_or_ge fetched script.fetches.length
  · simp only [fetch, after, fetchAnswer, List.drop_eq_getElem_cons hlt,
      List.getElem?_eq_getElem hlt, Option.getD_some]
  · have hnow := List.drop_eq_nil_of_le hle
    have hlater := List.drop_eq_nil_of_le (Nat.le_succ_of_le hle)
    simp only [fetch, after, fetchAnswer, hnow, hlater, List.getElem?_eq_none hle, Option.getD_none]

/-- The next submission gets the answer of its number. -/
theorem submit_after (script : Script) (fetched submitted : Nat) :
    (script.after fetched submitted).submit =
      (script.submitAnswer submitted, script.after fetched (submitted + 1)) := by
  obtain hlt | hle := Nat.lt_or_ge submitted script.submissions.length
  · simp only [submit, after, submitAnswer, List.drop_eq_getElem_cons hlt,
      List.getElem?_eq_getElem hlt, Option.getD_some]
  · have hnow := List.drop_eq_nil_of_le hle
    have hlater := List.drop_eq_nil_of_le (Nat.le_succ_of_le hle)
    simp only [submit, after, submitAnswer, hnow, hlater, List.getElem?_eq_none hle,
      Option.getD_none]

end Script

/-! ## Calls and their outcomes -/

namespace Worker.Turn

variable {c : Circumstances} {link : Link σ} {script left : Script} {w after : Worker}
  {state state' : σ} {deeds : List Deed}

/-- The calls of a turn take their answers from a script. -/
theorem left_eq {fetched submitted : Nat}
    (h : w.Turn c Script.link (script.after fetched submitted) after deeds left) (time : Nat) :
    left = script.after (fetched + (callsOf (deeds.map (Moment.mk time))).length)
      (submitted + (deliveriesOf (deeds.map (Moment.mk time))).length) := by
  rw [h.callsOf_eq]
  have hnone : (∀ report, w.phase ≠ .computing report) →
      deliveriesOf (deeds.map (Moment.mk time)) = [] := h.deliveriesOf_eq
  cases h with
  | stops hfree hcancelled =>
    rw [hnone (idle_of_isFree hfree), if_neg fun h => by omega]
    rfl
  | fetches hfree hrunning =>
    rw [hnone (idle_of_isFree hfree), if_pos ⟨hfree, hrunning⟩]
    exact congrArg Prod.snd (script.fetch_after fetched submitted)
  | submits report hphase =>
    rw [if_neg fun h => idle_of_isFree h.1 report hphase]
    exact congrArg Prod.snd (script.submit_after fetched submitted)
  | ended hphase | abandons _ hphase | failsFetch _ hphase | findsNothing hphase
  | receives _ hphase | failsSubmit _ _ hphase =>
    rw [hnone (by simp [hphase])]
    simp [isFree, hphase]

/-- A worker submits the report that it has computed. -/
theorem computing_of_submit_mem (h : w.Turn c link state after deeds state') {report : Report}
    (hdeed : .submit report ∈ deeds) : w.phase = .computing report := by
  cases h with
  | submits other hphase =>
    obtain rfl := Deed.submit.inj (List.mem_singleton.mp hdeed)
    exact hphase
  | stops | fetches =>
    unfold greeting at hdeed
    split at hdeed <;> simp at hdeed
  | failsFetch | findsNothing => split_ifs at hdeed <;> simp at hdeed
  | _ => simp at hdeed

/-- A worker that waits for the outcome of a fetch has just called for it. -/
theorem fetches_of_fetching (h : w.Turn c link state after deeds state') {fetched : Fetched}
    (hphase : after.phase = .fetching fetched) : w.isFree = true ∧ w.wake < c.cancelAt := by
  cases h with
  | fetches hfree hrunning => exact ⟨hfree, hrunning⟩
  | ended h => rw [h] at hphase; cases hphase
  | _ => cases hphase

end Worker.Turn

namespace Shift

/-- How many fetches a worker has made before a turn. -/
def fetchCount (shift : Shift σ) (n : Nat) : Nat := (callsOf (shift.during 0 n)).length

/-- How many reports a worker has submitted before a turn. -/
def submitCount (shift : Shift σ) (n : Nat) : Nat := (deliveriesOf (shift.during 0 n)).length

/-- At this turn the outcome of the fetch of a number is there: the call was made at the turn
before, and the answer comes before the cancellation. -/
def FetchEnds (shift : Shift Script) (n k : Nat) : Prop :=
  ∃ m, n = m + 1 ∧ shift.Fetches m ∧ shift.fetchCount m = k ∧
    (shift.worker m).wake + (shift.start.fetchAnswer k).2 < shift.circumstances.cancelAt

/-- At this turn the outcome of the submission of a number is there, which handed in this report:
the call was made at the turn before. -/
def SubmissionEnds (shift : Shift Script) (n k : Nat) (report : Report) : Prop :=
  ∃ m, n = m + 1 ∧ .submit report ∈ shift.deeds m ∧ shift.submitCount m = k

variable {shift : Shift Script} {n k : Nat}

/-- The calls of a turn come after those before it. -/
theorem fetchCount_succ (shift : Shift σ) (n : Nat) :
    shift.fetchCount (n + 1) = shift.fetchCount n + (callsOf (shift.moments n)).length := by
  rw [fetchCount, during_concat, Nat.zero_add, callsOf_append, List.length_append]
  rfl

/-- The submissions of a turn come after those before it. -/
theorem submitCount_succ (shift : Shift σ) (n : Nat) :
    shift.submitCount (n + 1) = shift.submitCount n + (deliveriesOf (shift.moments n)).length := by
  rw [submitCount, during_concat, Nat.zero_add, deliveriesOf_append, List.length_append]
  rfl

/-- A fetch is counted. -/
theorem fetchCount_of_fetches (h : shift.Fetches n) :
    shift.fetchCount (n + 1) = shift.fetchCount n + 1 := by
  rw [fetchCount_succ, moments, (shift.turn n).callsOf_eq, if_pos (fetches_iff.mp h)]
  rfl

/-- A script has answered the calls that have been made. -/
theorem before_eq (hlink : shift.link = Script.link) (n : Nat) :
    (shift.before n).2 = shift.start.after (shift.fetchCount n) (shift.submitCount n) := by
  induction n with
  | zero => rfl
  | succ n ih =>
    have hturn := turn_of_scripted hlink n
    rw [ih] at hturn
    rw [fetchCount_succ, submitCount_succ]
    exact hturn.left_eq (shift.worker n).wake

/-- The worker after a fetch. -/
theorem worker_of_fetches (hlink : shift.link = Script.link) (h : shift.Fetches n) :
    shift.worker (n + 1) = (shift.worker n).await shift.circumstances
      (.fetching (shift.start.fetchAnswer (shift.fetchCount n)).1)
      (shift.start.fetchAnswer (shift.fetchCount n)).2 := by
  obtain ⟨hfree, hrunning⟩ := fetches_iff.mp h
  have hfetch : shift.link.fetch (shift.before n).2 =
      (shift.start.fetchAnswer (shift.fetchCount n),
        shift.start.after (shift.fetchCount n + 1) (shift.submitCount n)) := by
    rw [before_eq hlink, hlink]
    exact shift.start.fetch_after _ _
  rw [worker_succ, Worker.advance_of_running hfree hrunning, hfetch]

/-- The outcome of a fetch is there when a worker has waited for it and is not cancelled. -/
theorem fetchEnds_iff (hlink : shift.link = Script.link) {fetched : Fetched} :
    (∃ k, shift.FetchEnds n k ∧ (shift.start.fetchAnswer k).1 = fetched) ↔
      (shift.worker n).phase = .fetching fetched ∧
        (shift.worker n).wake < shift.circumstances.cancelAt := by
  constructor
  · rintro ⟨k, ⟨m, rfl, hfetches, rfl, hearly⟩, rfl⟩
    rw [worker_of_fetches hlink hfetches]
    have hrunning := (fetches_iff.mp hfetches).2
    refine ⟨rfl, ?_⟩
    simp only [Worker.await]
    omega
  · rintro ⟨hphase, hearly⟩
    cases n with
    | zero => cases hphase
    | succ m =>
      have hfetches : shift.Fetches m := fetches_iff.mpr ((shift.turn m).fetches_of_fetching hphase)
      rw [worker_of_fetches hlink hfetches] at hphase hearly
      refine ⟨_, ⟨m, rfl, hfetches, rfl, ?_⟩, Phase.fetching.inj hphase⟩
      simp only [Worker.await] at hearly
      omega

/-- The turn at which a computed report is submitted. -/
theorem turn_of_computing (hlink : shift.link = Script.link) {report : Report}
    (hphase : (shift.worker n).phase = .computing report) :
    .submit report ∈ shift.deeds n ∧ (shift.worker (n + 1)).phase =
      .submitting report (shift.start.submitAnswer (shift.submitCount n)).1 := by
  have hsubmit : shift.link.submit report (shift.before n).2 =
      (shift.start.submitAnswer (shift.submitCount n),
        shift.start.after (shift.fetchCount n) (shift.submitCount n + 1)) := by
    rw [before_eq hlink, hlink]
    exact shift.start.submit_after _ _
  rw [worker_succ, deeds, Worker.advance_of_computing hphase, hsubmit]
  exact ⟨List.mem_singleton_self _, rfl⟩

/-- The outcome of a submission is there when a worker has waited for it. -/
theorem submissionEnds_iff (hlink : shift.link = Script.link) {report : Report}
    {outcome : Submitted} :
    (∃ k, shift.SubmissionEnds n k report ∧ (shift.start.submitAnswer k).1 = outcome) ↔
      (shift.worker n).phase = .submitting report outcome := by
  constructor
  · rintro ⟨k, ⟨m, rfl, hsubmit, rfl⟩, rfl⟩
    exact (turn_of_computing hlink ((shift.turn m).computing_of_submit_mem hsubmit)).2
  · intro hphase
    cases n with
    | zero => cases hphase
    | succ m =>
      obtain ⟨hsubmit, hanswered⟩ :=
        turn_of_computing hlink ((shift.turn m).computing_of_submitting hphase)
      rw [hanswered] at hphase
      exact ⟨_, ⟨m, rfl, hsubmit, rfl⟩, (Phase.submitting.inj hphase).2⟩

end Shift

end Reckoner
