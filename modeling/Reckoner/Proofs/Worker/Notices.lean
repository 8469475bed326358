import Reckoner.Proofs.Worker.Calls

/-!
# What a worker writes to the log

A worker says that a fetch has failed unless the one before it failed with the same sentence, and
that there is no task unless it has said so since its last assignment. It decides by what it
remembers, a sentence and a flag; here this is told from the answers that the script has given. A
failed submission is always told.

A fetch that comes back just when the worker is cancelled is given up. If it were taken up, the
worker would do at that turn what it does when it is cancelled a millisecond later.
-/

namespace Reckoner

variable {σ : Type}

/-! ## News -/

namespace Script

/-- The fetch of a number fails with this sentence, and the one before it has not. -/
def FailsAnew (script : Script) (k : Nat) (sentence : String) : Prop :=
  (∃ e, (script.fetchAnswer k).1 = .error e ∧ e.message = sentence) ∧
    ∀ j e, k = j + 1 → (script.fetchAnswer j).1 = .error e → e.message ≠ sentence

/-- The fetch of a number brings no task, and between it and any earlier one that has brought none
there is one that has brought an assignment. -/
def LacksAnew (script : Script) (k : Nat) : Prop :=
  (script.fetchAnswer k).1 = .ok none ∧ ∀ j < k, (script.fetchAnswer j).1 = .ok none →
    ∃ i, j < i ∧ i < k ∧ ∃ a, (script.fetchAnswer i).1 = .ok (some a)

end Script

/-! ## What is told at one turn -/

/-- Whether an event tells what became of a call. -/
def Event.isNotice : Event → Bool
  | fetchFailed .. | noTasks _ | submitFailed .. => true
  | _ => false

namespace Worker

variable {c : Circumstances} {link : Link σ} {w after : Worker} {state state' : σ}
  {deeds : List Deed} {event : Event}

/-- What a worker tells at the end of its phase, by what it remembers. -/
def notice? (c : Circumstances) (w : Worker) : Option Event :=
  match w.phase with
  | .fetching (.error e) =>
    if w.wake < c.cancelAt ∧ w.lastError ≠ some e.message then some (.fetchFailed w.id e.message)
    else none
  | .fetching (.ok none) =>
    if w.wake < c.cancelAt ∧ w.waiting = false then some (.noTasks w.id) else none
  | .submitting report (.error e) => some (.submitFailed w.id report.id e.message)
  | _ => none

/-- A failed fetch is told when its outcome is there, unless the sentence is the last one. -/
theorem notice?_eq_fetchFailed_iff {worker : Nat} {sentence : String} :
    w.notice? c = some (.fetchFailed worker sentence) ↔ worker = w.id ∧
      w.lastError ≠ some sentence ∧
      ∃ e, (w.phase = .fetching (.error e) ∧ w.wake < c.cancelAt) ∧ e.message = sentence := by
  unfold notice?
  split
  · next e hphase =>
    simp only [Option.ite_none_right_eq_some, Option.some.injEq, Event.fetchFailed.injEq, hphase,
      Phase.fetching.injEq, Except.error.injEq, and_assoc, exists_eq_left']
    constructor
    · rintro ⟨hearly, hnew, rfl, rfl⟩
      exact ⟨rfl, hnew, hearly, rfl⟩
    · rintro ⟨rfl, hnew, hearly, rfl⟩
      exact ⟨hearly, hnew, rfl, rfl⟩
  all_goals simp_all

/-- That there is no task is told when the answer is there, unless it has been told. -/
theorem notice?_eq_noTasks_iff {worker : Nat} :
    w.notice? c = some (.noTasks worker) ↔ worker = w.id ∧ w.waiting = false ∧
      w.phase = .fetching (.ok none) ∧ w.wake < c.cancelAt := by
  unfold notice?
  split
  · simp_all
  · next hphase =>
    simp only [Option.ite_none_right_eq_some, Option.some.injEq, Event.noTasks.injEq, hphase,
      true_and]
    constructor
    · rintro ⟨⟨hearly, hnew⟩, rfl⟩
      exact ⟨rfl, hnew, hearly⟩
    · rintro ⟨rfl, hnew, hearly⟩
      exact ⟨⟨hearly, hnew⟩, rfl⟩
  all_goals simp_all

/-- A failed submission is told when its outcome is there. -/
theorem notice?_eq_submitFailed_iff {worker : Nat} {task : TaskId} {sentence : String} :
    w.notice? c = some (.submitFailed worker task sentence) ↔ worker = w.id ∧
      ∃ report e, w.phase = .submitting report (.error e) ∧ report.id = task ∧
        e.message = sentence := by
  unfold notice?
  split
  case h_3 report e hphase => simp [hphase, eq_comm]
  all_goals simp_all

/-- A free worker has nothing to tell. -/
theorem notice?_of_isFree (hfree : w.isFree = true) : w.notice? c = none := by
  unfold isFree at hfree
  unfold notice?
  split at hfree <;> simp_all

/-- A worker that gives up a fetch has nothing to tell. -/
theorem notice?_of_abandoned {fetched : Fetched} (hphase : w.phase = .fetching fetched)
    (hcancelled : c.cancelAt ≤ w.wake) : w.notice? c = none := by
  unfold notice?
  rw [hphase]
  match fetched with
  | .error _ | .ok none => exact if_neg fun h => by omega
  | .ok (some _) => rfl

/-- A greeting is no notice. -/
theorem not_isNotice_of_mem_greeting (h : .log event ∈ w.greeting) : event.isNotice = false := by
  unfold greeting at h
  split at h
  · obtain rfl := Deed.log.inj (List.mem_singleton.mp h)
    rfl
  · cases h

/-- The notices of a turn. -/
theorem Turn.notice_mem_iff (h : w.Turn c link state after deeds state')
    (hnotice : event.isNotice = true) : .log event ∈ deeds ↔ w.notice? c = some event := by
  have hgreeting : .log event ∉ w.greeting := fun hmem => by
    rw [not_isNotice_of_mem_greeting hmem] at hnotice
    cases hnotice
  have hstopped : event ≠ .workerStopped w.id := by
    rintro rfl
    cases hnotice
  cases h with
  | ended hphase => simp [notice?, hphase]
  | stops hfree => simp [notice?_of_isFree hfree, hgreeting, hstopped]
  | fetches hfree => simp [notice?_of_isFree hfree, hgreeting]
  | abandons fetched hphase hcancelled => simp [notice?_of_abandoned hphase hcancelled, hstopped]
  | failsFetch e hphase hrunning =>
    by_cases hsame : w.lastError = some e.message
    · simp [notice?, hphase, hsame]
    · simp [notice?, hphase, hsame, hrunning, eq_comm]
  | findsNothing hphase hrunning =>
    cases hwaiting : w.waiting <;> simp [notice?, hphase, hwaiting, hrunning, eq_comm]
  | receives a hphase => simp [notice?, hphase]
  | submits report hphase => simp [notice?, hphase]
  | failsSubmit report e hphase => simp [notice?, hphase, eq_comm]

/-- Nothing is done twice at a turn. -/
theorem Turn.nodup (h : w.Turn c link state after deeds state') : deeds.Nodup := by
  cases h with
  | stops | fetches =>
    unfold greeting
    split <;> simp
  | failsFetch | findsNothing => split_ifs <;> simp
  | _ => simp

end Worker

/-! ## What a worker remembers -/

/-- What is remembered of some answers of a script: the sentence of the last one, if that was a
failure, and whether one has brought no task since the last assignment. -/
structure Script.Recalls (script : Script) (k : Nat) (lastError : Option String) (waiting : Bool) :
    Prop where
  lastError_iff : ∀ sentence, lastError = some sentence ↔
    ∃ j e, k = j + 1 ∧ (script.fetchAnswer j).1 = .error e ∧ e.message = sentence
  waiting_iff : waiting = true ↔ ∃ j < k, (script.fetchAnswer j).1 = .ok none ∧
    ∀ i, j < i → i < k → ∀ a, (script.fetchAnswer i).1 ≠ .ok (some a)

namespace Script.Recalls

variable {script : Script} {k : Nat} {lastError : Option String} {waiting : Bool}

/-- Before the first answer there is nothing to remember. -/
theorem start (script : Script) : script.Recalls 0 none false :=
  ⟨fun _ => by simp, by simp⟩

/-- A failure is remembered. -/
theorem failure (h : script.Recalls k lastError waiting) {e : TransportError}
    (hanswer : (script.fetchAnswer k).1 = .error e) :
    script.Recalls (k + 1) (some e.message) waiting where
  lastError_iff sentence := by
    constructor
    · rintro ⟨⟩
      exact ⟨k, e, rfl, hanswer, rfl⟩
    · rintro ⟨j, other, hj, hother, rfl⟩
      obtain rfl := Nat.succ.inj hj
      rw [hanswer] at hother
      rw [Except.error.inj hother]
  waiting_iff := by
    rw [h.waiting_iff]
    constructor
    · rintro ⟨j, hj, hnone, hsince⟩
      refine ⟨j, Nat.lt_succ_of_lt hj, hnone, fun i hji hi a => ?_⟩
      obtain hi | rfl := Nat.lt_succ_iff_lt_or_eq.mp hi
      · exact hsince i hji hi a
      · simp [hanswer]
    · rintro ⟨j, hj, hnone, hsince⟩
      obtain hj | rfl := Nat.lt_succ_iff_lt_or_eq.mp hj
      · exact ⟨j, hj, hnone, fun i hji hi => hsince i hji (Nat.lt_succ_of_lt hi)⟩
      · simp [hanswer] at hnone

/-- An answer that is no failure leaves no sentence. -/
theorem lastError_of_ok {found : Option Assignment}
    (hanswer : (script.fetchAnswer k).1 = .ok found) (sentence : String) :
    none = some sentence ↔
      ∃ j e, k + 1 = j + 1 ∧ (script.fetchAnswer j).1 = .error e ∧ e.message = sentence := by
  simp only [reduceCtorEq, false_iff]
  rintro ⟨j, e, hj, herror, -⟩
  obtain rfl := Nat.succ.inj hj
  simp [hanswer] at herror

/-- Having no task is remembered. -/
theorem nothing (hanswer : (script.fetchAnswer k).1 = .ok none) :
    script.Recalls (k + 1) none true where
  lastError_iff := lastError_of_ok hanswer
  waiting_iff := by
    simp only [true_iff]
    exact ⟨k, Nat.lt_succ_self k, hanswer, fun i hki hi => by omega⟩

/-- An assignment makes everything before it forgotten. -/
theorem assignment {a : Assignment} (hanswer : (script.fetchAnswer k).1 = .ok (some a)) :
    script.Recalls (k + 1) none false where
  lastError_iff := lastError_of_ok hanswer
  waiting_iff := by
    simp only [Bool.false_eq_true, false_iff]
    rintro ⟨j, hj, hnone, hsince⟩
    obtain hj | rfl := Nat.lt_succ_iff_lt_or_eq.mp hj
    · exact hsince k hj (Nat.lt_succ_self k) a hanswer
    · simp [hanswer] at hnone

/-- A failure is new if it is not the one that is remembered. -/
theorem failsAnew_iff (h : script.Recalls k lastError waiting) {sentence : String} :
    script.FailsAnew k sentence ↔ lastError ≠ some sentence ∧
      ∃ e, (script.fetchAnswer k).1 = .error e ∧ e.message = sentence := by
  unfold FailsAnew
  rw [and_comm, Ne, h.lastError_iff]
  refine and_congr_left fun _ => ⟨?_, ?_⟩
  · rintro hnew ⟨j, e, hj, herror, hsame⟩
    exact hnew j e hj herror hsame
  · rintro hnew j e hj herror hsame
    exact hnew ⟨j, e, hj, herror, hsame⟩

/-- Having no task is new if it is not remembered. -/
theorem lacksAnew_iff (h : script.Recalls k lastError waiting) :
    script.LacksAnew k ↔ waiting = false ∧ (script.fetchAnswer k).1 = .ok none := by
  unfold LacksAnew
  rw [and_comm, ← Bool.not_eq_true, h.waiting_iff]
  refine and_congr_left fun _ => ⟨?_, ?_⟩
  · rintro hnew ⟨j, hj, hnone, hsince⟩
    obtain ⟨i, hji, hi, a, hassignment⟩ := hnew j hj hnone
    exact hsince i hji hi a hassignment
  · rintro hnew j hj hnone
    by_contra hsince
    refine hnew ⟨j, hj, hnone, fun i hji hi a hassignment => ?_⟩
    exact hsince ⟨i, hji, hi, a, hassignment⟩

end Script.Recalls

/-- A worker that has made some fetches at a script remembers the answers, the one that it waits for
apart. -/
inductive Worker.Attends (script : Script) (w : Worker) (fetched : Nat) : Prop
  | stopped (hstopped : w.isStopped = true)
  | waiting (k : Nat) (hphase : w.phase = .fetching (script.fetchAnswer k).1)
      (hcount : fetched = k + 1) (hrecalls : script.Recalls k w.lastError w.waiting)
  | idle (hphase : ∀ outcome, w.phase ≠ .fetching outcome)
      (hrecalls : script.Recalls fetched w.lastError w.waiting)

namespace Worker

variable {c : Circumstances} {script left : Script} {w after : Worker} {deeds : List Deed}
  {fetched submitted : Nat}

/-- A worker that waits for an answer remembers those before it. -/
theorem Attends.of_fetching (h : w.Attends script fetched) {outcome : Fetched}
    (hphase : w.phase = .fetching outcome) : ∃ k, fetched = k + 1 ∧
      (script.fetchAnswer k).1 = outcome ∧ script.Recalls k w.lastError w.waiting := by
  cases h with
  | stopped hstopped => simp [isStopped, hphase] at hstopped
  | waiting k hanswer hcount hrecalls =>
    exact ⟨k, hcount, Phase.fetching.inj (hanswer.symm.trans hphase), hrecalls⟩
  | idle hidle => exact absurd hphase (hidle outcome)

/-- A worker that waits for no answer remembers all. -/
theorem Attends.of_idle (h : w.Attends script fetched) (hrunning : w.isStopped = false)
    (hidle : ∀ outcome, w.phase ≠ .fetching outcome) :
    script.Recalls fetched w.lastError w.waiting := by
  cases h with
  | stopped hstopped => rw [hrunning] at hstopped; cases hstopped
  | waiting k hphase => exact absurd hphase (hidle _)
  | idle _ hrecalls => exact hrecalls

/-- A free worker has not stopped, and waits for no answer. -/
theorem running_of_isFree (hfree : w.isFree = true) :
    w.isStopped = false ∧ ∀ outcome, w.phase ≠ .fetching outcome := by
  unfold isFree at hfree
  unfold isStopped
  split at hfree <;> simp_all

/-- A turn keeps what is remembered in step with the answers. -/
theorem Turn.attends (h : w.Turn c Script.link (script.after fetched submitted) after deeds left)
    (hattends : w.Attends script fetched) (time : Nat) :
    after.Attends script (fetched + (callsOf (deeds.map (Moment.mk time))).length) := by
  rw [h.callsOf_eq]
  cases h with
  | ended hphase => exact .stopped (by rw [isStopped, hphase])
  | stops | abandons => exact .stopped rfl
  | fetches hfree hrunning =>
    have hrecalls := hattends.of_idle (running_of_isFree hfree).1 (running_of_isFree hfree).2
    rw [if_pos ⟨hfree, hrunning⟩]
    refine .waiting fetched ?_ rfl hrecalls
    exact congrArg (Phase.fetching ·.1.1) (script.fetch_after fetched submitted)
  | failsFetch e hphase =>
    obtain ⟨k, rfl, hanswer, hrecalls⟩ := hattends.of_fetching hphase
    rw [if_neg fun h => by simp [isFree, hphase] at h]
    exact .idle (by simp [await]) (hrecalls.failure hanswer)
  | findsNothing hphase =>
    obtain ⟨k, rfl, hanswer, hrecalls⟩ := hattends.of_fetching hphase
    rw [if_neg fun h => by simp [isFree, hphase] at h]
    exact .idle (by simp [await]) (.nothing hanswer)
  | receives a hphase =>
    obtain ⟨k, rfl, hanswer, hrecalls⟩ := hattends.of_fetching hphase
    rw [if_neg fun h => by simp [isFree, hphase] at h]
    exact .idle (by simp) (.assignment hanswer)
  | submits _ hphase | failsSubmit _ _ hphase =>
    have hrecalls := hattends.of_idle (by simp [isStopped, hphase]) (by simp [hphase])
    rw [if_neg fun h => by simp [isFree, hphase] at h]
    exact .idle (by simp [await]) hrecalls

end Worker

namespace Shift

variable {shift : Shift Script} {n k : Nat}

/-- A worker at a script remembers what it has been answered. -/
theorem attends (hlink : shift.link = Script.link) (n : Nat) :
    (shift.worker n).Attends shift.start (shift.fetchCount n) := by
  induction n with
  | zero => exact .idle (by simp [worker, before, Worker.new]) (.start shift.start)
  | succ n ih =>
    have hturn := turn_of_scripted hlink n
    rw [before_eq hlink n] at hturn
    rw [fetchCount_succ]
    exact hturn.attends ih (shift.worker n).wake

/-- When the outcome of a fetch is there, the worker remembers the answers before it. -/
theorem FetchEnds.recalls (hlink : shift.link = Script.link) (h : shift.FetchEnds n k) :
    shift.start.Recalls k (shift.worker n).lastError (shift.worker n).waiting := by
  obtain ⟨hphase, -⟩ := (fetchEnds_iff hlink).mp ⟨k, h, rfl⟩
  obtain ⟨j, hj, -, hrecalls⟩ := (attends hlink n).of_fetching hphase
  obtain ⟨m, rfl, hfetches, rfl, -⟩ := h
  rw [fetchCount_of_fetches hfetches] at hj
  obtain rfl := Nat.succ.inj hj
  exact hrecalls

/-! ## The log -/

/-- What a worker at a script writes to the log at a turn: news of the calls that have ended. -/
structure TellsNews (shift : Shift Script) (n : Nat) : Prop where
  fetchFailed : ∀ worker sentence, .log (.fetchFailed worker sentence) ∈ shift.deeds n ↔
    worker = shift.id ∧ ∃ k, shift.FetchEnds n k ∧ shift.start.FailsAnew k sentence
  noTasks : ∀ worker, .log (.noTasks worker) ∈ shift.deeds n ↔
    worker = shift.id ∧ ∃ k, shift.FetchEnds n k ∧ shift.start.LacksAnew k
  /-- Every failure of a submission is told. -/
  submitFailed : ∀ worker task sentence,
    .log (.submitFailed worker task sentence) ∈ shift.deeds n ↔ worker = shift.id ∧
      ∃ k report e, shift.SubmissionEnds n k report ∧
        (shift.start.submitAnswer k).1 = .error e ∧ report.id = task ∧ e.message = sentence
  /-- Nothing is told twice. -/
  nodup : (shift.deeds n).Nodup

/-- A worker at a script tells news, and no more. -/
theorem tellsNews (hlink : shift.link = Script.link) (n : Nat) : shift.TellsNews n where
  fetchFailed worker sentence := by
    rw [(shift.turn n).notice_mem_iff rfl, Worker.notice?_eq_fetchFailed_iff, shift.id_worker]
    refine and_congr_right fun _ => ⟨?_, ?_⟩
    · rintro ⟨hnew, e, hphase, hsentence⟩
      obtain ⟨k, hends, hanswer⟩ := (fetchEnds_iff hlink).mpr hphase
      exact ⟨k, hends, (hends.recalls hlink).failsAnew_iff.mpr ⟨hnew, e, hanswer, hsentence⟩⟩
    · rintro ⟨k, hends, hfails⟩
      obtain ⟨hnew, e, hanswer, hsentence⟩ := (hends.recalls hlink).failsAnew_iff.mp hfails
      exact ⟨hnew, e, (fetchEnds_iff hlink).mp ⟨k, hends, hanswer⟩, hsentence⟩
  noTasks worker := by
    rw [(shift.turn n).notice_mem_iff rfl, Worker.notice?_eq_noTasks_iff, shift.id_worker]
    refine and_congr_right fun _ => ⟨?_, ?_⟩
    · rintro ⟨hnew, hphase⟩
      obtain ⟨k, hends, hanswer⟩ := (fetchEnds_iff hlink).mpr hphase
      exact ⟨k, hends, (hends.recalls hlink).lacksAnew_iff.mpr ⟨hnew, hanswer⟩⟩
    · rintro ⟨k, hends, hlacks⟩
      obtain ⟨hnew, hanswer⟩ := (hends.recalls hlink).lacksAnew_iff.mp hlacks
      exact ⟨hnew, (fetchEnds_iff hlink).mp ⟨k, hends, hanswer⟩⟩
  submitFailed worker task sentence := by
    rw [(shift.turn n).notice_mem_iff rfl, Worker.notice?_eq_submitFailed_iff, shift.id_worker]
    refine and_congr_right fun _ => ⟨?_, ?_⟩
    · rintro ⟨report, e, hphase, htask, hsentence⟩
      obtain ⟨k, hends, hanswer⟩ := (submissionEnds_iff hlink).mpr hphase
      exact ⟨k, report, e, hends, hanswer, htask, hsentence⟩
    · rintro ⟨k, report, e, hends, hanswer, htask, hsentence⟩
      exact ⟨report, e, (submissionEnds_iff hlink).mp ⟨k, hends, hanswer⟩, htask, hsentence⟩
  nodup := (shift.turn n).nodup

end Shift

/-- **A worker writes to the log when something changes.** Whatever a script answers, after whatever
delays, and at every turn, so in every beginning of a run: that a fetch has failed is told when its
outcome is there, exactly if it is the first fetch or the one before did not fail with the same
sentence; that there is no task is told when the answer is there, exactly if no fetch since the last
assignment has brought none; and every failure of a submission is told. -/
theorem Worker.run_tellsNews (c : Circumstances) (id : Nat) (script : Script) :
    let shift : Shift Script := ⟨c, Script.link, id, script⟩
    (∃ count, (Worker.run c Script.link id script).moments = shift.during 0 count) ∧
      ∀ n, shift.TellsNews n := by
  intro shift
  exact ⟨shift.exists_run, fun n => Shift.tellsNews rfl n⟩

-- the second refusal is no news, the third is; that there is no task is told once
example :
    let refused : Fetched × Nat := (.error (.request "refused"), 10)
    let run := Worker.run { Worker.sampleCircumstances with cancelAt := 700 } Script.link 0
      ⟨[refused, refused, (.ok none, 0), refused], []⟩
    run.moments.filterMap (·.deed.event?) = [.workerStarted 0,
      .fetchFailed 0 "request failed: refused", .noTasks 0,
      .fetchFailed 0 "request failed: refused", .workerStopped 0] := by
  decide +kernel

end Reckoner
