import Mathlib.Data.List.Induction
import Mathlib.Data.List.Perm.Subperm
import Reckoner.Proofs.Worker.Crew
import Reckoner.Proofs.Worker.Ending

/-!
# What becomes of every task

At any time the tasks in processing are those that workers have in hand, one for each worker, except
that a worker may still have a task in hand whose expression has failed in the meantime. When all
workers have stopped, every claimed task has been reported on once. A run of a pool is one of the
orders in which a crew can act, and comes to an end.
-/

namespace Reckoner

/-! ## Tasks by status -/

namespace Memory

variable {m n : Memory} {t : Task}

/-- The numbers of the tasks with a status. -/
def withStatus (m : Memory) (status : TaskStatus) : List TaskId :=
  (m.tasks.filter (·.status == status)).map (·.id)

/-- Whether an expression has failed. -/
def hasFailed (m : Memory) (id : ExpressionId) : Bool :=
  m.expressions.any fun e => e.id == id && e.status == .error

theorem mem_withStatus {status : TaskStatus} {id : TaskId} :
    id ∈ m.withStatus status ↔ ∃ t ∈ m.tasks, t.status = status ∧ t.id = id := by
  simp [withStatus, and_assoc]

/-- A number is that of one task. -/
theorem Numbered.nodup_withStatus (h : m.Numbered) (status : TaskStatus) :
    (m.withStatus status).Nodup :=
  (List.pairwise_map.mpr ((h.tasks.filter _).imp Int.ne_of_lt))

/-- A claim takes one of the pending tasks. -/
theorem Claims.length_pending_lt (h : m.Claims t n) (hn : n.Numbered) :
    (n.withStatus .pending).length < (m.withStatus .pending).length := by
  have htaken : t.id ∉ n.withStatus .pending := by
    intro hmem
    obtain ⟨u, hu, hpending, hid⟩ := mem_withStatus.mp hmem
    obtain rfl := hn.eq_of_id_eq hu h.mem hid
    rw [h.status_eq] at hpending
    cases hpending
  have hkept : n.withStatus .pending ⊆ m.withStatus .pending := by
    intro id hmem
    obtain ⟨u, hu, hpending, rfl⟩ := mem_withStatus.mp hmem
    have hne : u.id ≠ t.id := fun hid => htaken (hid ▸ hmem)
    obtain ⟨s, hs, hstays⟩ := h.others u hu hne
    exact mem_withStatus.mpr ⟨s, hs, hstays.status_eq.symm.trans hpending, hstays.id_eq.symm⟩
  have hthere : t.id ∈ m.withStatus .pending := by
    obtain ⟨s, hs, hpending, hgrows⟩ := h.source
    exact mem_withStatus.mpr ⟨s, hs, hpending, hgrows.id_eq.symm⟩
  exact (List.subperm_of_subset (List.nodup_cons.mpr ⟨htaken, hn.nodup_withStatus _⟩)
    (List.cons_subset.mpr ⟨hthere, hkept⟩)).length_le

/-- A report makes no task pending. -/
theorem Orderly.length_pending_apply_le (h : m.Orderly) (report : Report) :
    ((m.apply report).withStatus .pending).length ≤ (m.withStatus .pending).length := by
  refine (List.subperm_of_subset
    ((h.apply report).numbered.nodup_withStatus _) fun id hmem => ?_).length_le
  obtain ⟨u, hu, hpending, rfl⟩ := mem_withStatus.mp hmem
  refine mem_withStatus.mpr ⟨u, ?_, hpending, rfl⟩
  have happlies := apply_cases h.numbered report
  generalize m.apply report = n at happlies hu
  cases happlies with
  | dropped => exact hu
  | failed | finished => exact (mem_drop.mp hu).1
  | completed t =>
    rcases mem_put.mp hu with ⟨rfl, -⟩ | ⟨hu, -⟩
    · cases hpending
    · exact hu

/-- An expression with a task has not failed. -/
theorem Orderly.hasFailed_eq_false (h : m.Orderly) (ht : t ∈ m.tasks) :
    m.hasFailed t.expressionId = false := by
  obtain ⟨e, he, hid, hopen⟩ := h.owned t ht
  refine List.any_eq_false.mpr fun d hd hfailed => ?_
  rw [Bool.and_eq_true, beq_iff_eq, beq_iff_eq] at hfailed
  obtain rfl := h.numbered.eq_of_expression_id_eq hd he (hfailed.1.trans hid.symm)
  rw [hfailed.2] at hopen
  cases hopen

/-- The scheduler has at most as many assignments as there are pending tasks. -/
theorem metered_link (clock : Instant) :
    (link clock).Metered (fun state => ∃ m : Memory, state = .of m ∧ m.Orderly)
      fun state => (state.committed.withStatus .pending).length where
  fetch_inv := by
    rintro _ ⟨m, rfl, hm⟩
    rw [fetch_link hm]
    exact ⟨_, rfl, hm.claim⟩
  fetch_stock := by
    rintro _ ⟨m, rfl, hm⟩
    rw [fetch_link hm]
    obtain hnone | ⟨t, -, hclaims⟩ := claim_cases hm.numbered
    · exact Nat.le_of_eq (by rw [hnone])
    · exact Nat.le_of_lt (hclaims.length_pending_lt hm.claim.numbered)
  fetch_some := by
    rintro _ ⟨m, rfl, hm⟩ hsome
    rw [fetch_link hm] at hsome ⊢
    obtain hnone | ⟨t, -, hclaims⟩ := claim_cases hm.numbered
    · rw [hnone] at hsome
      exact absurd rfl hsome
    · exact hclaims.length_pending_lt hm.claim.numbered
  submit_inv := by
    rintro report _ ⟨m, rfl, hm⟩
    rw [submit_link hm]
    exact ⟨_, rfl, hm.apply report⟩
  submit_stock := by
    rintro report _ ⟨m, rfl, hm⟩
    rw [submit_link hm]
    exact hm.length_pending_apply_le report

end Memory

namespace Crew

variable {c : Circumstances} {power : Nat} {crew : Crew}

/-! ## At any time -/

/-- What is known of the tasks at any time. -/
structure Accounts (c : Circumstances) (power : Nat) (crew : Crew) : Prop where
  /-- The tasks in processing are those that workers have in hand, one for each worker, but for the
  tasks of expressions that have failed. -/
  in_hand : (((crew.hands c).filter fun report =>
      !crew.memory.hasFailed report.expressionId).map (·.id)).Perm
    (crew.memory.withStatus .processing)
  /-- No more tasks are in processing than there are workers. -/
  bounded : (crew.memory.withStatus .processing).length ≤ power
  /-- No task is claimed twice. -/
  claimed_once : (crew.claimed.map (·.id)).Nodup
  /-- No task is claimed after the cancellation. -/
  early : ∀ moment ∈ crew.moments, ∀ fetched, moment.deed = .fetch fetched →
    moment.time < c.cancelAt
  /-- No claimed task is reported on twice. -/
  reported_once : (crew.submitted.map (·.id)).Nodup
  /-- Nothing else is reported than what has been claimed. -/
  reported : ∀ report ∈ crew.submitted, ∃ a ∈ crew.claimed,
    report = Report.ofAssignment c.arith a
  /-- When all workers have stopped, every claimed task has been reported on exactly once, and no
  task is in processing. -/
  settled : (∀ w ∈ crew.workers, w.isStopped = true) →
    crew.submitted.Perm (crew.claimed.map (Report.ofAssignment c.arith)) ∧
      crew.memory.withStatus .processing = []

/-- What is submitted or in somebody's hands has been claimed. -/
theorem Sound.exists_claimed (h : crew.Sound c) {report : Report}
    (hreport : report ∈ crew.submitted ++ crew.hands c) :
    ∃ a ∈ crew.claimed, report = Report.ofAssignment c.arith a := by
  obtain ⟨a, ha, heq⟩ := List.mem_map.mp (h.accounted.mem_iff.mpr hreport)
  exact ⟨a, ha, heq.symm⟩

/-- A task that a worker has in hand is in processing unless its expression has failed, and no other
task is. -/
theorem Sound.mem_processing_iff (h : crew.Sound c) {id : TaskId} :
    id ∈ crew.memory.withStatus .processing ↔ ∃ report ∈ crew.hands c,
      crew.memory.hasFailed report.expressionId = false ∧ report.id = id := by
  rw [Memory.mem_withStatus]
  constructor
  · rintro ⟨t, ht, hstatus, rfl⟩
    obtain ⟨report, hreport, hid⟩ := h.worked t ht hstatus
    refine ⟨report, hreport, ?_, hid⟩
    obtain ⟨a, ha, rfl⟩ := h.exists_claimed (List.mem_append_right _ hreport)
    obtain ⟨hexpression, -⟩ := (h.known a ha).same t ht hid.symm
    rw [← hexpression]
    exact h.orderly.hasFailed_eq_false ht
  · rintro ⟨report, hreport, hopen, rfl⟩
    obtain ⟨t, ht, hid, -, hstatus⟩ | ⟨e, he, hid, hstatus⟩ := h.holds report hreport
    · exact ⟨t, ht, hstatus, hid⟩
    · rw [Memory.hasFailed, List.any_eq_false] at hopen
      exact absurd (by simp [hid, hstatus]) (hopen e he)

/-- The tasks in processing are those in hand whose expressions have not failed. -/
theorem Sound.in_hand (h : crew.Sound c) :
    (((crew.hands c).filter fun report =>
      !crew.memory.hasFailed report.expressionId).map (·.id)).Perm
    (crew.memory.withStatus .processing) := by
  have hnodup := h.nodup_reports
  rw [List.map_append] at hnodup
  refine (List.perm_ext_iff_of_nodup
    ((List.filter_sublist.map _).nodup hnodup.of_append_right)
    (h.orderly.numbered.nodup_withStatus _)).mpr fun id => ?_
  rw [h.mem_processing_iff]
  simp [and_assoc]

/-- The invariant accounts for every task. -/
theorem Sound.accounts (h : crew.Sound c) (hpower : crew.workers.length = power) :
    crew.Accounts c power where
  in_hand := h.in_hand
  bounded := by
    rw [← h.in_hand.length_eq, List.length_map, ← hpower]
    exact Nat.le_trans (List.length_filter_le ..) (List.length_filterMap_le ..)
  claimed_once := h.nodup
  early := h.early
  reported_once := by
    have hnodup := h.nodup_reports
    rw [List.map_append] at hnodup
    exact hnodup.of_append_left
  reported _ hreport := h.exists_claimed (List.mem_append_left _ hreport)
  settled hstopped := by
    have hempty : crew.hands c = [] := by
      refine List.filterMap_eq_nil_iff.mpr fun w hw => ?_
      have hphase := hstopped w hw
      unfold Worker.isStopped at hphase
      unfold Worker.hand?
      split at hphase <;> simp_all
    have hin := h.in_hand
    rw [hempty] at hin
    refine ⟨?_, List.nil_perm.mp hin⟩
    have haccounted := h.accounted
    rw [hempty, List.append_nil] at haccounted
    exact haccounted.symm

/-! ## Runs of a pool -/

/-- The scheduler leaves no transaction open. -/
theorem exists_of_turn {m : Memory} (h : m.Orderly) {clock : Instant} {w after : Worker}
    {deeds : List Deed} {state : Transacted Memory}
    (hturn : w.Turn c (Memory.link clock) (.of m) after deeds state) :
    state = .of state.committed := by
  cases hturn with
  | fetches => rw [Memory.fetch_link h]; rfl
  | submits => rw [Memory.submit_link h]; rfl
  | _ => rfl

/-- Turns of the workers in any order lead a crew on. -/
theorem Reachable.turns {clock : Instant} {workers final : List Worker}
    {state left : Transacted Memory} {moments : List Moment}
    (hturns : Pool.Turns c (Memory.link clock) workers state moments final left)
    (h : crew.Reachable c power) (hworkers : crew.workers = workers)
    (hstate : state = .of crew.memory) :
    ∃ next : Crew, next.Reachable c power ∧ next.workers.Perm final ∧
      next.memory = left.committed ∧ next.moments = crew.moments ++ moments := by
  induction hturns generalizing crew with
  | none hperm =>
    refine ⟨crew, h, hworkers ▸ hperm, by rw [hstate]; rfl, (List.append_nil _).symm⟩
  | @cons workers others final w after state middle left deeds moments hworker hadvance _ ih =>
    subst hworkers hstate
    have hturn := Worker.turn c (Memory.link clock) w (.of crew.memory)
    rw [hadvance] at hturn
    have hact : crew.act c clock w others w.wake =
        ⟨after :: others, middle.committed, crew.moments ++ deeds.map (Moment.mk w.wake)⟩ := by
      unfold act
      rw [hadvance]
    obtain ⟨next, hnext, hfinal, hmemory, hmoments⟩ := ih
      (h.step (.act clock w others w.wake hworker (Nat.le_refl _) fun _ _ => rfl))
      (by rw [hact]) (by rw [hact]; exact exists_of_turn h.sound.orderly hturn)
    refine ⟨next, hnext, hfinal, hmemory, ?_⟩
    rw [hmoments, hact, List.append_assoc]

/-- Workers that have not begun, and some formulas that have been submitted. -/
def withFormulas (power : Nat) (formulas : List (Instant × UserId × String)) : Crew :=
  formulas.foldl (fun crew (clock, userId, formula) => crew.submit clock userId formula)
    (start power)

/-- Formulas can be submitted before the workers begin. -/
theorem reachable_withFormulas (c : Circumstances) (power : Nat)
    (formulas : List (Instant × UserId × String)) :
    (withFormulas power formulas).Reachable c power ∧
      (withFormulas power formulas).workers = (List.range power).map .new ∧
      (withFormulas power formulas).moments = [] := by
  unfold withFormulas
  induction formulas using List.reverseRecOn with
  | nil => exact ⟨.start, rfl, rfl⟩
  | append_singleton formulas formula ih =>
    obtain ⟨hreachable, hworkers, hmoments⟩ := ih
    rw [List.foldl_append]
    exact ⟨hreachable.step (.submit ..), hworkers, hmoments⟩

/-- A run of a pool on submitted formulas is one way in which a crew can act; all of the workers
have stopped at its end, if they wait between their calls. -/
theorem exists_run (c : Circumstances) (power : Nat)
    (formulas : List (Instant × UserId × String)) (clock : Instant) :
    let run := Pool.run c (Memory.link clock) power (.of (withFormulas power formulas).memory)
    ∃ crew : Crew, crew.Reachable c power ∧ crew.memory = run.state.committed ∧
      crew.claimed = run.moments.filterMap (·.deed.claimed?) ∧
      crew.submitted = run.moments.filterMap (·.deed.submitted?) ∧
      (1 ≤ c.pace.poll → ∀ w ∈ crew.workers, w.isStopped = true) := by
  obtain ⟨hreachable, hworkers, hmoments⟩ := reachable_withFormulas c power formulas
  generalize withFormulas power formulas = crew at hreachable hworkers hmoments
  by_cases hpower : power = 0
  · subst hpower
    refine ⟨crew, hreachable, rfl, ?_, ?_, fun _ w hw => ?_⟩
    · rw [claimed, hmoments]; rfl
    · rw [submitted, hmoments]; rfl
    · rw [hworkers] at hw
      cases hw
  · simp only [Pool.run, if_neg hpower, Pool.runWorkers]
    have hrunning : ∀ w ∈ (List.range power).map Worker.new, w.isStopped = false := by
      intro w hw
      obtain ⟨_, -, rfl⟩ := List.mem_map.mp hw
      rfl
    obtain ⟨final, hturns, hends⟩ := Pool.exists_turns (Memory.metered_link clock) _ 0 _ [] _
      ⟨_, rfl, hreachable.sound.orderly⟩ hrunning (by simp)
    rw [List.append_nil] at hturns
    obtain ⟨next, hnext, hfinal, hmemory, hdone⟩ := hreachable.turns hturns hworkers rfl
    rw [hmoments, List.nil_append] at hdone
    refine ⟨next, hnext, hmemory, ?_, ?_, fun hpoll w hw => ?_⟩
    · simp [claimed, hdone, Deed.claimed?]
    · simp [submitted, hdone, Deed.submitted?]
    · refine hends hpoll (Pool.budget_new_le (Memory.link clock) ?_ power) w (hfinal.mem_iff.mp hw)
      rw [Memory.withStatus, List.length_map]
      exact List.length_filter_le ..

/-- **Every task is accounted for.** With any number of workers at the scheduler, whatever formulas
are submitted, however long operations take and whenever the workers are cancelled, in any order of
their turns: the tasks in processing are those that workers have in hand, one for each, except that
a worker may still have a task in hand whose expression has failed. Nothing is claimed twice or
after the cancellation, nothing is reported on twice, and when all workers have stopped every
claimed task has been reported on once and none is in processing. A run of a pool is such an order,
and in it all workers stop if they wait between their calls. -/
theorem accounts_for_every_task (c : Circumstances) (power : Nat) :
    (∀ crew : Crew, crew.Reachable c power → crew.Accounts c power) ∧
    ∀ (formulas : List (Instant × UserId × String)) (clock : Instant),
      let run := Pool.run c (Memory.link clock) power (.of (withFormulas power formulas).memory)
      ∃ crew : Crew, crew.Reachable c power ∧ crew.memory = run.state.committed ∧
        crew.claimed = run.moments.filterMap (·.deed.claimed?) ∧
        crew.submitted = run.moments.filterMap (·.deed.submitted?) ∧
        (1 ≤ c.pace.poll → ∀ w ∈ crew.workers, w.isStopped = true) :=
  ⟨fun _ h => h.sound.accounts h.length_workers, exists_run c power⟩

/-- Workers that are cancelled after a second. -/
def sampleCircumstances : Circumstances := ⟨.ieee, ⟨100, 500, .uniform 10⟩, 1000⟩

/-- Two workers on two formulas. -/
def sampleRun : Run (Transacted Memory) :=
  Pool.run sampleCircumstances (Memory.link ⟨0, 0⟩) 2
    (.of (withFormulas 2 [(⟨0, 0⟩, 7, "-(-(2))"), (⟨0, 0⟩, 8, "1/0")]).memory)

/-- In the sample both workers stop, and what has been claimed has been reported on. -/
theorem accounts_for_every_task_sample :
    (sampleRun.moments.filterMap (·.deed.submitted?)).Perm
      ((sampleRun.moments.filterMap (·.deed.claimed?)).map (Report.ofAssignment .ieee)) ∧
      sampleRun.state.committed.withStatus .processing = [] := by
  obtain ⟨haccounts, hruns⟩ := accounts_for_every_task sampleCircumstances 2
  obtain ⟨crew, hreachable, hmemory, hclaimed, hsubmitted, hstopped⟩ :=
    hruns [(⟨0, 0⟩, 7, "-(-(2))"), (⟨0, 0⟩, 8, "1/0")] ⟨0, 0⟩
  have hsettled := (haccounts crew hreachable).settled (hstopped (by decide))
  rw [hmemory, hclaimed, hsubmitted] at hsettled
  exact hsettled

/-- The worker at a place acts at the end of its phase. -/
def actAt (c : Circumstances) (crew : Crew) (i : Nat) : Crew :=
  match crew.workers[i]? with
  | none => crew
  | some w => crew.act c ⟨0, 0⟩ w (crew.workers.eraseIdx i) w.wake

/-- Any worker may act. -/
theorem Reachable.actAt (h : crew.Reachable c power) (i : Nat) :
    (crew.actAt c i).Reachable c power := by
  unfold Crew.actAt
  cases hworker : crew.workers[i]? with
  | none => exact h
  | some w =>
    obtain ⟨hi, rfl⟩ := List.getElem?_eq_some_iff.mp hworker
    exact h.step (.act ⟨0, 0⟩ _ _ _ (List.getElem_cons_eraseIdx_perm hi).symm (Nat.le_refl _)
      fun _ _ => rfl)

/-- Two workers have fetched a task each of one formula; then the report on the first task fails the
formula. -/
def overtaken : Crew :=
  [0, 1, 1, 0].foldl (actAt sampleCircumstances) (withFormulas 2 [(⟨0, 0⟩, 7, "1/0+-(2)")])

/-- Workers can have a task in hand while none is in processing: its formula has failed. -/
theorem not_in_hand_iff_processing : ¬ ∀ crew : Crew, crew.Reachable sampleCircumstances 2 →
    ((crew.hands sampleCircumstances).map (·.id)).Perm (crew.memory.withStatus .processing) := by
  intro hclaim
  have hformulas := (reachable_withFormulas sampleCircumstances 2 [(⟨0, 0⟩, 7, "1/0+-(2)")]).1
  have hreachable : overtaken.Reachable sampleCircumstances 2 :=
    (((hformulas.actAt 0).actAt 1).actAt 1).actAt 0
  have hhand : (overtaken.hands sampleCircumstances).map (·.id) = [2] := by decide +kernel
  have hprocessing : overtaken.memory.withStatus .processing = [] := by decide +kernel
  have hperm := hclaim overtaken hreachable
  rw [hhand, hprocessing] at hperm
  exact absurd hperm.length_eq (by decide)

end Crew

end Reckoner
