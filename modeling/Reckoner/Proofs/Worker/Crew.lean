import Mathlib.Data.List.Nodup
import Reckoner.Proofs.Worker.Holding
import Reckoner.Proofs.Worker.Turn

/-!
# Workers at one scheduler

A crew is any number of workers at the scheduler on the store in memory. Calls are answered at once
and none is lost. The workers act in any order and at any times after their phases have ended, and
formulas are submitted in between. Whatever has been claimed is in the hands of exactly one worker
until its report is submitted.
-/

namespace Reckoner

/-! ## Crews -/

/-- The assignment that a deed brings. -/
def Deed.claimed? : Deed → Option Assignment
  | .fetch (.ok (some a)) => some a
  | _ => none

/-- The report that a deed submits. -/
def Deed.submitted? : Deed → Option Report
  | .submit report => some report
  | _ => none

/-- The scheduler on the store in memory as a link. -/
def Memory.link (clock : Instant) : Link (Transacted Memory) :=
  Scheduler.link (Memory.store.handle clock) (·.committed.tasks.length)

/-- Workers and what is stored. -/
structure Crew where
  workers : List Worker
  memory : Memory
  /-- What the workers have done so far. -/
  moments : List Moment

namespace Crew

/-- What the workers have been handed out. -/
def claimed (crew : Crew) : List Assignment := crew.moments.filterMap (·.deed.claimed?)

/-- What the workers have reported. -/
def submitted (crew : Crew) : List Report := crew.moments.filterMap (·.deed.submitted?)

/-- The reports that the workers have in hand, one for each worker that holds an assignment. -/
def hands (c : Circumstances) (crew : Crew) : List Report := crew.workers.filterMap (·.hand? c)

/-- Workers that have not begun, and nothing stored. -/
def start (power : Nat) : Crew := ⟨(List.range power).map .new, .empty, []⟩

/-- One of the workers acts at a time. -/
def act (c : Circumstances) (crew : Crew) (clock : Instant) (w : Worker) (others : List Worker)
    (now : Nat) : Crew :=
  let (after, deeds, state) :=
    { w with wake := now }.advance c (Memory.link clock) (.of crew.memory)
  ⟨after :: others, state.committed, crew.moments ++ deeds.map (⟨now, ·⟩)⟩

/-- A user submits a formula. -/
def submit (crew : Crew) (clock : Instant) (userId : UserId) (formula : String) : Crew :=
  { crew with memory := (Service.submit Memory.store clock userId formula crew.memory).state }

/-- What can happen next. A worker acts when its phase is over, or later; but what it has fetched it
takes up at once. -/
inductive Step (c : Circumstances) (crew : Crew) : Crew → Prop
  | submit (clock : Instant) (userId : UserId) (formula : String) :
      Step c crew (crew.submit clock userId formula)
  | act (clock : Instant) (w : Worker) (others : List Worker) (now : Nat)
      (hworker : crew.workers.Perm (w :: others)) (hover : w.wake ≤ now)
      (hprompt : ∀ fetched, w.phase = .fetching fetched → now = w.wake) :
      Step c crew (crew.act c clock w others now)

/-- What can come about with a number of workers. -/
inductive Reachable (c : Circumstances) (power : Nat) : Crew → Prop
  | start : Reachable c power (start power)
  | step {crew next : Crew} : Reachable c power crew → crew.Step c next → Reachable c power next

end Crew

/-! ## Calls at the scheduler -/

namespace Memory

variable {m : Memory}

/-- A fetch claims a task, if one is ready. -/
theorem fetch_link (h : m.Orderly) (clock : Instant) :
    (link clock).fetch (.of m) =
      ((.ok (m.claim.1.map Assignment.ofTask), 0), .of m.claim.2) := by
  obtain ⟨events, hrun⟩ := Scheduler.readTask_run clock h.joined
  simp only [link, Scheduler.link, hrun]

/-- A submission applies the report. -/
theorem submit_link (h : m.Orderly) (clock : Instant) (report : Report) :
    (link clock).submit report (.of m) = ((.ok (), 0), .of (m.apply report)) := by
  obtain ⟨events, hrun⟩ := Scheduler.completeTask_run clock h.joined report
  simp only [link, Scheduler.link, hrun]

end Memory

/-! ## The invariant of a crew -/

namespace Crew

variable {c : Circumstances} {power : Nat} {crew : Crew}

/-- The invariant: what is claimed has been submitted or is in somebody's hands, once. -/
structure Sound (c : Circumstances) (crew : Crew) : Prop where
  orderly : crew.memory.Orderly
  /-- No task is claimed twice. -/
  nodup : (crew.claimed.map (·.id)).Nodup
  /-- What has been claimed has been submitted or is in somebody's hands. -/
  accounted : (crew.claimed.map (Report.ofAssignment c.arith)).Perm
    (crew.submitted ++ crew.hands c)
  known : ∀ a ∈ crew.claimed, crew.memory.Knows (Report.ofAssignment c.arith a)
  holds : ∀ report ∈ crew.hands c, crew.memory.Holds report
  /-- Somebody works on every task in processing. -/
  worked : ∀ t ∈ crew.memory.tasks, t.status = .processing → ∃ report ∈ crew.hands c,
    report.id = t.id
  /-- No worker calls for an assignment once it is cancelled. -/
  early : ∀ moment ∈ crew.moments, ∀ fetched, moment.deed = .fetch fetched →
    moment.time < c.cancelAt
  /-- What is fetched arrives before the cancellation. -/
  arrives : ∀ w ∈ crew.workers, ∀ fetched, w.phase = .fetching fetched → w.wake < c.cancelAt

/-- No two reports that are submitted or in somebody's hands are about one task. -/
theorem Sound.nodup_reports (h : crew.Sound c) :
    ((crew.submitted ++ crew.hands c).map (·.id)).Nodup := by
  refine ((h.accounted.map (·.id)).nodup_iff).mp ?_
  rw [List.map_map]
  have hids : ((·.id) ∘ Report.ofAssignment c.arith) = fun a : Assignment => a.id :=
    funext fun a => Report.id_ofAssignment c.arith a
  rw [hids]
  exact h.nodup

/-- Workers are in no order. -/
theorem Sound.of_perm (h : crew.Sound c) {workers : List Worker}
    (hperm : crew.workers.Perm workers) : { crew with workers }.Sound c := by
  have hhands : (crew.hands c).Perm (workers.filterMap (·.hand? c)) := hperm.filterMap _
  refine ⟨h.orderly, h.nodup, h.accounted.trans (hhands.append_left _), h.known,
    fun report hreport => h.holds report (hhands.mem_iff.mpr hreport), fun t ht hstatus => ?_,
    h.early, fun w hw => h.arrives w (hperm.mem_iff.mpr hw)⟩
  obtain ⟨report, hreport, hid⟩ := h.worked t ht hstatus
  exact ⟨report, hhands.mem_iff.mp hreport, hid⟩

/-- A new formula keeps the invariant. -/
theorem Sound.submit (h : crew.Sound c) (clock : Instant) (userId : UserId) (formula : String) :
    (crew.submit clock userId formula).Sound c := by
  unfold Crew.submit Service.submit
  cases hgraph : Formula.compile formula with
  | error e => exact h
  | ok graph =>
    exact ⟨h.orderly.create clock userId hgraph, h.nodup, h.accounted,
      fun a ha => (h.known a ha).create clock userId formula graph,
      fun report hreport => (h.holds report hreport).create clock userId formula graph,
      fun t ht hstatus => h.worked t (Memory.processing_create clock userId hgraph ht hstatus)
        hstatus,
      h.early, h.arrives⟩

/-! ## One turn of a worker -/

section Turn

variable {w after : Worker} {others : List Worker} {m n : Memory} {moments : List Moment}

@[simp] theorem claimed_append (workers : List Worker) (deeds : List Deed) (now : Nat) :
    claimed ⟨workers, m, moments ++ deeds.map (Moment.mk now)⟩ =
      claimed ⟨workers, m, moments⟩ ++ deeds.filterMap Deed.claimed? := by
  simp only [claimed, List.filterMap_append, List.filterMap_map]
  rfl

@[simp] theorem submitted_append (workers : List Worker) (deeds : List Deed) (now : Nat) :
    submitted ⟨workers, m, moments ++ deeds.map (Moment.mk now)⟩ =
      submitted ⟨workers, m, moments⟩ ++ deeds.filterMap Deed.submitted? := by
  simp only [submitted, List.filterMap_append, List.filterMap_map]
  rfl

/-- The first worker's hands, and those of the others. -/
theorem hands_cons : hands c ⟨w :: others, m, moments⟩ =
    (w.hand? c).toList ++ others.filterMap (·.hand? c) := by
  unfold hands
  rw [List.filterMap_cons]
  cases w.hand? c <;> rfl

/-- A worker may act later than its phase ends, if it has not just fetched. -/
theorem Sound.wake (h : Sound c ⟨w :: others, m, moments⟩) {now : Nat}
    (hprompt : ∀ fetched, w.phase = .fetching fetched → now = w.wake) :
    Sound c ⟨{ w with wake := now } :: others, m, moments⟩ := by
  refine ⟨h.orderly, h.nodup, h.accounted, h.known, h.holds, h.worked, h.early,
    fun v hv fetched hphase => ?_⟩
  rcases List.mem_cons.mp hv with rfl | hv
  · rw [hprompt fetched hphase]
    exact h.arrives w (List.mem_cons_self ..) fetched hphase
  · exact h.arrives v (List.mem_cons_of_mem _ hv) fetched hphase

/-- Calls for assignments before the cancellation are early. -/
theorem Sound.early_append (h : Sound c ⟨w :: others, m, moments⟩) {deeds : List Deed} {now : Nat}
    (hdeeds : ∀ fetched, .fetch fetched ∈ deeds → now < c.cancelAt) :
    ∀ moment ∈ moments ++ deeds.map (Moment.mk now), ∀ fetched, moment.deed = .fetch fetched →
      moment.time < c.cancelAt := by
  intro moment hmoment fetched hdeed
  rcases List.mem_append.mp hmoment with hmoment | hmoment
  · exact h.early moment hmoment fetched hdeed
  · obtain ⟨deed, hmem, rfl⟩ := List.mem_map.mp hmoment
    exact hdeeds fetched (hdeed ▸ hmem)

/-- What the first worker has fetched arrives early, and so does what the others have. -/
theorem Sound.arrives_cons (h : Sound c ⟨w :: others, m, moments⟩)
    (hafter : ∀ fetched, after.phase = .fetching fetched → after.wake < c.cancelAt) :
    ∀ v ∈ after :: others, ∀ fetched, v.phase = .fetching fetched → v.wake < c.cancelAt := by
  intro v hv fetched hphase
  rcases List.mem_cons.mp hv with rfl | hv
  · exact hafter fetched hphase
  · exact h.arrives v (List.mem_cons_of_mem _ hv) fetched hphase

/-- A turn that claims nothing and submits nothing keeps the invariant. -/
theorem Sound.rest (h : Sound c ⟨w :: others, m, moments⟩) (hhand : after.hand? c = w.hand? c)
    {deeds : List Deed} {now : Nat} (hclaimed : deeds.filterMap Deed.claimed? = [])
    (hsubmitted : deeds.filterMap Deed.submitted? = [])
    (hearly : ∀ fetched, .fetch fetched ∈ deeds → now < c.cancelAt)
    (harrives : ∀ fetched, after.phase = .fetching fetched → after.wake < c.cancelAt) :
    Sound c ⟨after :: others, m, moments ++ deeds.map (Moment.mk now)⟩ := by
  have hhands : hands c ⟨after :: others, m, moments ++ deeds.map (Moment.mk now)⟩ =
      hands c ⟨w :: others, m, moments⟩ := by rw [hands_cons, hands_cons, hhand]
  have hsame : claimed ⟨after :: others, m, moments ++ deeds.map (Moment.mk now)⟩ =
      claimed ⟨w :: others, m, moments⟩ := by
    rw [claimed_append, hclaimed, List.append_nil]
    rfl
  refine ⟨h.orderly, hsame ▸ h.nodup, ?_, hsame ▸ h.known, hhands ▸ h.holds, hhands ▸ h.worked,
    h.early_append hearly, h.arrives_cons harrives⟩
  rw [hsame, hhands, submitted_append, hsubmitted, List.append_nil]
  exact h.accounted

/-- A claim keeps the invariant: the task is in the worker's hands. -/
theorem Sound.claim (h : Sound c ⟨w :: others, m, moments⟩) (hidle : w.hand? c = none) {t : Task}
    (hclaims : m.Claims t n) (hn : n.Orderly)
    (hhand : after.hand? c = some (.ofAssignment c.arith (.ofTask t)))
    {deeds : List Deed} {now : Nat} (hclaimed : deeds.filterMap Deed.claimed? = [.ofTask t])
    (hsubmitted : deeds.filterMap Deed.submitted? = []) (hearly : now < c.cancelAt)
    (harrives : after.wake < c.cancelAt) :
    Sound c ⟨after :: others, n, moments ++ deeds.map (Moment.mk now)⟩ := by
  have hhands : hands c ⟨after :: others, n, moments ++ deeds.map (Moment.mk now)⟩ =
      .ofAssignment c.arith (.ofTask t) :: hands c ⟨w :: others, m, moments⟩ := by
    rw [hands_cons, hands_cons, hhand, hidle]
    rfl
  have hmore : claimed ⟨after :: others, n, moments ++ deeds.map (Moment.mk now)⟩ =
      claimed ⟨w :: others, m, moments⟩ ++ [.ofTask t] := by
    rw [claimed_append, hclaimed]
    rfl
  have hsame : submitted ⟨after :: others, n, moments ++ deeds.map (Moment.mk now)⟩ =
      submitted ⟨w :: others, m, moments⟩ := by
    rw [submitted_append, hsubmitted, List.append_nil]
    rfl
  have hid : (Report.ofAssignment c.arith (.ofTask t)).id = t.id := Report.id_ofAssignment ..
  have hexpression : (Report.ofAssignment c.arith (.ofTask t)).expressionId = t.expressionId :=
    Report.expressionId_ofAssignment ..
  refine ⟨hn, ?_, ?_, fun a ha => ?_, fun report hreport => ?_, fun u hu hstatus => ?_,
    h.early_append fun _ _ => hearly, h.arrives_cons fun _ _ => harrives⟩
  · rw [hmore, List.map_append]
    refine List.Nodup.append h.nodup (List.pairwise_singleton ..)
      (List.disjoint_singleton.mpr fun hmem => ?_)
    obtain ⟨a, ha, hsame⟩ := List.mem_map.mp hmem
    exact (h.known a ha).id_ne hclaims ((Report.id_ofAssignment ..).trans hsame)
  · rw [hmore, hsame, hhands, List.map_append]
    refine (h.accounted.append_right _).trans ?_
    rw [List.append_assoc]
    exact (List.perm_append_singleton ..).append_left _
  · rw [hmore] at ha
    rcases List.mem_append.mp ha with ha | ha
    · exact (h.known a ha).claims hclaims
    · rw [List.mem_singleton.mp ha]
      exact Memory.knows_of_claims hn.numbered hclaims hid hexpression
  · rw [hhands] at hreport
    rcases List.mem_cons.mp hreport with rfl | hreport
    · exact Memory.holds_of_claims hclaims hid hexpression
    · exact (h.holds report hreport).claims h.orderly.numbered hclaims
  · rw [hhands]
    obtain hclaimed | ⟨s, hs, hsid, hbefore⟩ := hclaims.processing hu hstatus
    · exact ⟨_, List.mem_cons_self .., hid.trans hclaimed.symm⟩
    · obtain ⟨report, hreport, hworks⟩ := h.worked s hs hbefore
      exact ⟨report, List.mem_cons_of_mem _ hreport, hworks.trans hsid⟩

/-- A submission keeps the invariant: the report leaves the worker's hands. -/
theorem Sound.report (h : Sound c ⟨w :: others, m, moments⟩) {report : Report}
    (hbefore : w.hand? c = some report) (hafter : after.hand? c = none)
    {deeds : List Deed} {now : Nat} (hclaimed : deeds.filterMap Deed.claimed? = [])
    (hsubmitted : deeds.filterMap Deed.submitted? = [report])
    (hearly : ∀ fetched, .fetch fetched ∉ deeds)
    (harrives : ∀ fetched, after.phase ≠ .fetching fetched) :
    Sound c ⟨after :: others, m.apply report, moments ++ deeds.map (Moment.mk now)⟩ := by
  have hhands : hands c ⟨w :: others, m, moments⟩ = report ::
      hands c ⟨after :: others, m.apply report, moments ++ deeds.map (Moment.mk now)⟩ := by
    rw [hands_cons, hands_cons, hafter, hbefore]
    rfl
  have hsame : claimed ⟨after :: others, m.apply report, moments ++ deeds.map (Moment.mk now)⟩ =
      claimed ⟨w :: others, m, moments⟩ := by
    rw [claimed_append, hclaimed, List.append_nil]
    rfl
  have hmore : submitted ⟨after :: others, m.apply report,
      moments ++ deeds.map (Moment.mk now)⟩ =
      submitted ⟨w :: others, m, moments⟩ ++ [report] := by
    rw [submitted_append, hsubmitted]
    rfl
  have hothers : ∀ other ∈ hands c ⟨after :: others, m.apply report,
      moments ++ deeds.map (Moment.mk now)⟩, other.id ≠ report.id := by
    have hnodup := h.nodup_reports
    rw [hhands, List.map_append, List.map_cons] at hnodup
    intro other hother hid
    exact (List.nodup_cons.mp hnodup.of_append_right).1 (hid ▸ List.mem_map_of_mem hother)
  refine ⟨h.orderly.apply report, hsame ▸ h.nodup, ?_, fun a ha => ?_, fun other hother => ?_,
    fun u hu hstatus => ?_, h.early_append fun fetched hmem => absurd hmem (hearly fetched),
    h.arrives_cons fun fetched hphase => absurd hphase (harrives fetched)⟩
  · rw [hsame, hmore, List.append_assoc, List.singleton_append, ← hhands]
    exact h.accounted
  · exact (h.known a (hsame ▸ ha)).apply h.orderly.numbered report
  · have hbefore : other ∈ hands c ⟨w :: others, m, moments⟩ :=
      hhands ▸ List.mem_cons_of_mem _ hother
    exact (h.holds other hbefore).apply h.orderly (hothers other hother)
  · obtain ⟨hu, hne⟩ := h.orderly.processing_apply hu hstatus
    obtain ⟨other, hother, hid⟩ := h.worked u hu hstatus
    rw [hhands] at hother
    rcases List.mem_cons.mp hother with rfl | hother
    · exact absurd hid.symm hne
    · exact ⟨other, hother, hid⟩

/-- A greeting calls nobody. -/
theorem greeting_calls (w : Worker) : w.greeting.filterMap Deed.claimed? = [] ∧
    w.greeting.filterMap Deed.submitted? = [] ∧ ∀ fetched, .fetch fetched ∉ w.greeting := by
  unfold Worker.greeting
  split <;> simp [Deed.claimed?, Deed.submitted?]

/-- A free worker has nothing in hand. -/
theorem hand?_of_isFree (hfree : w.isFree = true) : w.hand? c = none := by
  unfold Worker.isFree at hfree
  unfold Worker.hand?
  split <;> simp_all

/-- Every turn of a worker keeps the invariant. -/
theorem Sound.turn (h : Sound c ⟨w :: others, m, moments⟩) {clock : Instant} {deeds : List Deed}
    {state : Transacted Memory}
    (hturn : w.Turn c (Memory.link clock) (.of m) after deeds state) :
    Sound c ⟨after :: others, state.committed, moments ++ deeds.map (Moment.mk w.wake)⟩ := by
  have harrives := h.arrives w (List.mem_cons_self ..)
  obtain ⟨hclaimed, hsubmitted, hcalls⟩ := greeting_calls w
  cases hturn with
  | ended => exact h.rest rfl rfl rfl (by simp) harrives
  | abandons fetched hphase hcancelled =>
    exact absurd (harrives fetched hphase) (Nat.not_lt_of_le hcancelled)
  | stops hfree =>
    refine h.rest (by rw [hand?_of_isFree hfree]; rfl) ?_ ?_ (by simp [hcalls]) (by simp)
    · simp [hclaimed, Deed.claimed?]
    · simp [hsubmitted, Deed.submitted?]
  | fetches hfree hrunning =>
    have hidle := @hand?_of_isFree c w hfree
    have harrived : (w.await c (.fetching ((Memory.link clock).fetch (.of m)).1.1)
        ((Memory.link clock).fetch (.of m)).1.2).wake < c.cancelAt := by
      rw [Memory.fetch_link h.orderly]
      simp only [Worker.await]
      omega
    rw [Memory.fetch_link h.orderly] at harrived ⊢
    obtain hnone | ⟨t, ht, hclaims⟩ := Memory.claim_cases h.orderly.numbered
    · rw [hnone] at harrived ⊢
      refine h.rest (by rw [hidle]; rfl) ?_ ?_ (fun _ _ => hrunning) fun _ _ => harrived
      · simp [hclaimed, Deed.claimed?]
      · simp [hsubmitted, Deed.submitted?]
    · rw [ht] at harrived ⊢
      refine h.claim hidle hclaims h.orderly.claim rfl ?_ ?_ hrunning harrived
      · simp [hclaimed, Deed.claimed?]
      · simp [hsubmitted, Deed.submitted?]
  | failsFetch e hphase =>
    refine h.rest (by simp [Worker.hand?, Worker.await, hphase]) ?_ ?_ ?_ (by simp [Worker.await])
    all_goals split_ifs <;> simp [Deed.claimed?, Deed.submitted?]
  | findsNothing hphase =>
    refine h.rest (by simp [Worker.hand?, Worker.await, hphase]) ?_ ?_ ?_ (by simp [Worker.await])
    all_goals split_ifs <;> simp [Deed.claimed?, Deed.submitted?]
  | receives a hphase => exact h.rest (by simp [Worker.hand?, hphase]) rfl rfl (by simp) (by simp)
  | submits report hphase =>
    rw [Memory.submit_link h.orderly]
    exact h.report (by simp [Worker.hand?, hphase]) rfl rfl rfl (by simp) (by simp)
  | failsSubmit report e hphase =>
    exact h.rest (by simp [Worker.hand?, Worker.await, hphase]) rfl rfl (by simp)
      (by simp [Worker.await])

end Turn

/-! ## Whatever the workers do -/

/-- Nothing has been claimed at the start. -/
theorem Sound.start (c : Circumstances) (power : Nat) : (start power).Sound c := by
  have hhands : (Crew.start power).hands c = [] := by
    unfold hands Crew.start
    rw [List.filterMap_map, List.filterMap_eq_nil_iff]
    exact fun _ _ => rfl
  refine ⟨.empty, List.nodup_nil, ?_, ?_, ?_, ?_, ?_, fun w hw fetched hphase => ?_⟩
  · rw [hhands]
    exact List.Perm.refl []
  · exact fun _ h => absurd h List.not_mem_nil
  · rw [hhands]
    exact fun _ h => absurd h List.not_mem_nil
  · exact fun _ h => absurd h List.not_mem_nil
  · exact fun _ h => absurd h List.not_mem_nil
  · obtain ⟨_, -, rfl⟩ := List.mem_map.mp hw
    cases hphase

/-- Every step keeps the invariant. -/
theorem Sound.step (h : crew.Sound c) {next : Crew} (hstep : crew.Step c next) : next.Sound c := by
  cases hstep with
  | submit clock userId formula => exact h.submit clock userId formula
  | act clock w others now hworker _ hprompt =>
    exact ((h.of_perm hworker).wake hprompt).turn (Worker.turn ..)

/-- The invariant holds whatever comes about. -/
theorem Reachable.sound (h : crew.Reachable c power) : crew.Sound c := by
  induction h with
  | start => exact .start c power
  | step _ hstep ih => exact ih.step hstep

/-- No worker comes or goes. -/
theorem Reachable.length_workers (h : crew.Reachable c power) : crew.workers.length = power := by
  induction h with
  | start => simp [Crew.start]
  | step _ hstep ih =>
    cases hstep with
    | submit => exact ih
    | act clock w others now hworker => exact hworker.length_eq.symm.trans ih

end Crew

end Reckoner
