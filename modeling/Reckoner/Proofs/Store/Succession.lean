import Reckoner.Proofs.Scheduler.Body
import Reckoner.Proofs.Store.Contention

/-!
# One caller after the other

Whoever holds the lock works as if the store were its own: the data do not change meanwhile, and the
rest of its work comes to what all of it would come to alone. So the callers that have finished
could have come one after the other, in the order in which they took the lock; of those that have
not, nothing is to be seen.
-/

namespace Reckoner

/-! ## The shape of a job -/

namespace Call

variable {α : Type}

/-- The rest of a transaction: queries and events, then the request that closes it. -/
inductive Closing : Call α → Prop
  | note (event : Event) {rest : Call α} (hrest : Closing rest) : Closing (.note event rest)
  | query (q : Query) {next : Except StoreError (Request.query q).Answer → Call α}
      (hnext : ∀ answer, Closing (next answer)) : Closing (.ask (.query q) next)
  | commit {next : Except StoreError Request.commit.Answer → Call α} {a : α}
      (hnext : next (.ok ()) = .done a) : Closing (.ask .commit next)
  | rollback {next : Except StoreError Request.rollback.Answer → Call α} {a : α}
      (hnext : next (.ok ()) = .done a) : Closing (.ask .rollback next)

end Call

namespace Scheduler

variable {α : Type}

/-- What has become of a body closes the transaction. -/
theorem closing_settle (undoFailed : String → Event)
    (verdict : Except SchedulerError (Verdict α)) : (settle undoFailed verdict).Closing := by
  rcases verdict with e | ⟨value | value⟩
  · exact .rollback rfl
  · exact .commit rfl
  · exact .rollback rfl

/-- Behind a body the transaction is closed. -/
theorem Guarded.closing {body : Action (Verdict α)} (h : Guarded body)
    (undoFailed : String → Event) : (Call.bind body (settle undoFailed)).Closing := by
  induction h with
  | done result => exact closing_settle undoFailed result
  | note event _ ih => exact .note event ih
  | ask q _ _ herror ih =>
    refine .query q fun answer => ?_
    cases answer with
    | ok answer => exact ih answer
    | error e =>
      rw [herror]
      exact closing_settle undoFailed _

end Scheduler

/-- A job opens a transaction and closes it, or accesses the data once. -/
theorem Job.work_cases (now : Instant) (job : Job) :
    (∃ act, job.work now = .access act) ∨
      ∃ next, job.work now = .transaction (.ask .begin next) ∧ (next (.ok ())).Closing := by
  cases job with
  | read =>
    have heq := Scheduler.readTask_eq_transact.trans (Scheduler.transact_eq ..)
    exact Or.inr ⟨_, congrArg Work.transaction heq, Scheduler.guarded_claimReady.closing _⟩
  | complete report =>
    have heq := (Scheduler.completeTask_eq_transact report).trans (Scheduler.transact_eq ..)
    exact Or.inr ⟨_, congrArg Work.transaction heq, (Scheduler.guarded_judge report).closing _⟩
  | create userId formula graph => exact Or.inl ⟨_, rfl⟩
  | get id userId => exact Or.inl ⟨_, rfl⟩
  | list userId => exact Or.inl ⟨_, rfl⟩
  | tasks id => exact Or.inl ⟨_, rfl⟩

/-! ## One after the other -/

namespace Shared

variable {ι : Type} {callers : Callers ι}

/-- A caller holds the lock, and what it still has to do comes to what all of its work comes to when
nobody interferes. -/
inductive Holds (callers : Callers ι) (i : ι) (committed : Memory) :
    Place (callers.Answer i) → Prop
  | inside {working : Memory} {rest : Call (callers.Answer i)} (hclosing : rest.Closing)
      (hrest : callers.alone i committed =
        let reply := rest.run (Memory.store.handle (callers.time i)) ⟨committed, working⟩
        (reply.answer, reply.state.committed)) : Holds callers i committed (.inside working rest)
  | holding {act : Memory → callers.Answer i × Memory}
      (hact : callers.alone i committed = act committed) : Holds callers i committed (.holding act)

/-- Whoever holds the lock has not finished. -/
theorem Holds.answer?_eq_none {i : ι} {committed : Memory} {place : Place (callers.Answer i)}
    (h : Holds callers i committed place) : place.answer? = none := by
  cases h <;> rfl

/-- Whoever waits has not finished. -/
theorem answer?_ofWork (callers : Callers ι) (i : ι) :
    (Place.ofWork (callers.work i)).answer? = none := by
  obtain ⟨act, hwork⟩ | ⟨next, hwork, -⟩ := (callers.job i).work_cases (callers.time i)
  · rw [Callers.work, hwork]
    rfl
  · rw [Callers.work, hwork]
    rfl

/-- Where a caller can be. -/
inductive Stands (s : Shared callers) (i : ι) : Prop
  | waits (hplace : s.place i = .ofWork (callers.work i)) (hnew : i ∉ s.order)
      (hfree : s.holder ≠ some i)
  | holds (hholder : s.holder = some i) (hlast : ∃ earlier, s.order = earlier ++ [i])
      (hplace : Holds callers i s.committed (s.place i))
  | finished {a : callers.Answer i} (hplace : s.place i = .outside (.done a)) (htook : i ∈ s.order)
      (hfree : s.holder ≠ some i)
  | dropped (hplace : s.place i = .gone) (hfree : s.holder ≠ some i)

/-- The holder of the lock is known as such. -/
theorem Stands.of_holder {s : Shared callers} {i : ι} (h : s.Stands i)
    (hholder : s.holder = some i) :
    (∃ earlier, s.order = earlier ++ [i]) ∧ Holds callers i s.committed (s.place i) := by
  cases h with
  | waits _ _ hfree => exact absurd hholder hfree
  | holds _ hlast hplace => exact ⟨hlast, hplace⟩
  | finished _ _ hfree => exact absurd hholder hfree
  | dropped _ hfree => exact absurd hholder hfree

/-- A caller stays where it is while another one moves. -/
theorem Stands.frame {s s' : Shared callers} {i : ι} (h : s.Stands i)
    (hplace : s'.place i = s.place i) (horder : i ∈ s'.order ↔ i ∈ s.order)
    (hfree : s.holder ≠ some i) (hfree' : s'.holder ≠ some i) : s'.Stands i := by
  cases h with
  | waits hwhere hnew _ => exact .waits (hplace.trans hwhere) (fun hi => hnew (horder.mp hi)) hfree'
  | holds hholder _ _ => exact absurd hholder hfree
  | finished hwhere htook _ => exact .finished (hplace.trans hwhere) (horder.mpr htook) hfree'
  | dropped hwhere _ => exact .dropped (hplace.trans hwhere) hfree'

/-- The callers that have finished could have come one after the other. -/
structure Sound (m : Memory) (s : Shared callers) : Prop where
  /-- Nobody takes the lock twice. -/
  nodup : s.order.Nodup
  stands : ∀ i, s.Stands i
  committed_eq : s.committed = callers.serial s.served m
  answer_eq : ∀ before i after, s.served = before ++ i :: after →
    (s.place i).answer? = some (callers.alone i (callers.serial before m)).1

variable {m : Memory} {s s' : Shared callers}

/-- Nobody has finished yet. -/
theorem Sound.start (callers : Callers ι) (m : Memory) : (Shared.start callers m).Sound m :=
  ⟨List.nodup_nil, fun _ => .waits rfl List.not_mem_nil (by simp [Shared.start]), rfl,
    fun _ _ _ h => by simp [served, Shared.start] at h⟩

/-- Those who have finished and nobody else are served. -/
theorem Sound.mem_served_iff (h : s.Sound m) (i : ι) :
    i ∈ s.served ↔ (s.place i).answer?.isSome = true := by
  refine List.mem_filter.trans ⟨And.right, fun hanswer => ⟨?_, hanswer⟩⟩
  cases h.stands i with
  | waits hplace _ _ =>
    rw [hplace, answer?_ofWork] at hanswer
    cases hanswer
  | holds _ _ hplace =>
    rw [hplace.answer?_eq_none] at hanswer
    cases hanswer
  | finished _ htook _ => exact htook
  | dropped hplace _ =>
    rw [hplace] at hanswer
    cases hanswer

/-- A move by which nobody finishes and no data change. -/
theorem Sound.of_open (h : s.Sound m) {i : ι} (hopen : (s.place i).answer? = none)
    (hopen' : (s'.place i).answer? = none) (hothers : ∀ j ≠ i, s'.place j = s.place j)
    (hcommitted : s'.committed = s.committed) (hnodup : s'.order.Nodup)
    (horder : s'.order = s.order ∨ s'.order = s.order ++ [i]) (hstands : ∀ j, s'.Stands j) :
    s'.Sound m := by
  have hsame : ∀ j, (s'.place j).answer?.isSome = (s.place j).answer?.isSome := by
    intro j
    by_cases hj : j = i
    · rw [hj, hopen, hopen']
    · rw [hothers j hj]
  have hserved : s'.served = s.served := by
    unfold served
    simp only [hsame]
    obtain horder | horder := horder
    · rw [horder]
    · rw [horder, List.filter_append]
      simp [hopen]
  refine ⟨hnodup, hstands, by rw [hcommitted, hserved, h.committed_eq], fun before j after hj => ?_⟩
  rw [hserved] at hj
  have hanswer := h.answer_eq before j after hj
  have hne : j ≠ i := by
    rintro rfl
    rw [hopen] at hanswer
    cases hanswer
  rw [hothers j hne, hanswer]

/-! ## What a move does -/

variable [DecidableEq ι]

/-- All that a move can do. -/
inductive Turn (s : Shared callers) : Shared callers → Prop
  | idle : Turn s s
  | takes {i : ι} {place : Place (callers.Answer i)} (hfree : s.holder = none)
      (hwaits : s.place i = .ofWork (callers.work i)) (hnew : i ∉ s.order)
      (hplace : Holds callers i s.committed place) :
      Turn s { s.move i place with holder := some i, order := s.order ++ [i] }
  | works {i : ι} {place : Place (callers.Answer i)} (hholder : s.holder = some i)
      (hplace : Holds callers i s.committed place) : Turn s (s.move i place)
  | finishes {i : ι} (hholder : s.holder = some i) :
      Turn s (s.release i (callers.alone i s.committed).2
        (.outside (.done (callers.alone i s.committed).1)))
  | leaves {i : ι} (hopen : (s.place i).answer? = none) :
      Turn s { s.move i .gone with holder := s.holder.filter (· ≠ i) }

/-- The rest of a transaction does its next step. -/
theorem turn_inside {i : ι} {working : Memory}
    {rest : Call (callers.Answer i)} (hholder : s.holder = some i)
    (hplace : s.place i = .inside working rest) (hclosing : rest.Closing)
    (hrest : callers.alone i s.committed =
      let reply := rest.run (Memory.store.handle (callers.time i)) ⟨s.committed, working⟩
      (reply.answer, reply.state.committed)) : Turn s (s.advance i) := by
  cases hclosing with
  | note event hrest' =>
    simp only [advance, hplace]
    exact .works hholder (.inside hrest' hrest)
  | query q hnext =>
    simp only [advance, hplace, Request.closes]
    have hsame := Memory.store.committed_handle (callers.time i) (.query q) (by simp)
      ⟨s.committed, working⟩
    refine .works hholder (.inside (hnext _) ?_)
    rw [hrest]
    simp only [Call.run]
    generalize Memory.store.handle (callers.time i) (.query q) ⟨s.committed, working⟩ = reply
      at hsame ⊢
    obtain ⟨answer, committed, copy⟩ := reply
    obtain rfl := hsame
    rfl
  | commit hnext =>
    have hfinishes := Turn.finishes hholder
    rw [hrest] at hfinishes
    simp only [Call.run, Store.handle, hnext] at hfinishes
    simp only [advance, hplace, Store.handle, hnext]
    exact hfinishes
  | rollback hnext =>
    have hfinishes := Turn.finishes hholder
    rw [hrest] at hfinishes
    simp only [Call.run, Store.handle, hnext] at hfinishes
    simp only [advance, hplace, Store.handle, hnext]
    exact hfinishes

/-- A free lock is taken, and a lock that is held is waited for. -/
theorem turn_take {i : ι} {place : Place (callers.Answer i)}
    (hwaits : s.place i = .ofWork (callers.work i)) (hnew : i ∉ s.order)
    (hplace : Holds callers i s.committed place) : Turn s (s.take i place) := by
  unfold take
  cases hholder : s.holder with
  | none => exact .takes hholder hwaits hnew hplace
  | some _ => exact .idle

/-- A caller does its next step. -/
theorem turn_advance {i : ι} (h : s.Stands i) : Turn s (s.advance i) := by
  cases h with
  | waits hplace hnew _ =>
    obtain ⟨act, hwork⟩ | ⟨next, hwork, hclosing⟩ := (callers.job i).work_cases (callers.time i)
    · have hstart : s.place i = .wanting act := by rw [hplace, Callers.work, hwork, Place.ofWork]
      simp only [advance, hstart]
      refine turn_take hplace hnew (.holding ?_)
      rw [Callers.alone, Callers.work, hwork, Work.alone]
    · have hstart : s.place i = .outside (.ask .begin next) := by
        rw [hplace, Callers.work, hwork, Place.ofWork]
      simp only [advance, hstart]
      refine turn_take hplace hnew (.inside hclosing ?_)
      rw [Callers.alone, Callers.work, hwork, Work.alone]
      rfl
  | holds hholder _ hplace =>
    generalize hwhere : s.place i = place at hplace
    cases hplace with
    | inside hclosing hrest => exact turn_inside hholder hwhere hclosing hrest
    | holding hact =>
      have hfinishes := Turn.finishes hholder
      rw [hact] at hfinishes
      simp only [advance, hwhere]
      exact hfinishes
  | finished hplace _ _ =>
    simp only [advance, hplace]
    exact .idle
  | dropped hplace _ =>
    simp only [advance, hplace]
    exact .idle

/-- A caller is dropped. -/
theorem turn_abandon (s : Shared callers) (i : ι) : Turn s (s.abandon i) := by
  unfold abandon
  cases hanswer : (s.place i).answer? with
  | some _ => exact .idle
  | none => exact .leaves hanswer

/-- The caller that moves gets where it goes. -/
@[simp] theorem place_move (s : Shared callers) (i : ι) (place : Place (callers.Answer i)) :
    (s.move i place).place i = place := Function.update_self ..

/-- The others stay where they are. -/
theorem place_move_of_ne (s : Shared callers) {i j : ι} (place : Place (callers.Answer i))
    (hne : j ≠ i) : (s.move i place).place j = s.place j := Function.update_of_ne hne ..

/-- Someone takes the lock. -/
theorem Sound.takes (h : s.Sound m) {i : ι} {place : Place (callers.Answer i)}
    (hfree : s.holder = none) (hwaits : s.place i = .ofWork (callers.work i)) (hnew : i ∉ s.order)
    (hplace : Holds callers i s.committed place) :
    Sound m { s.move i place with holder := some i, order := s.order ++ [i] } := by
  have hopen : (s.place i).answer? = none := by rw [hwaits, answer?_ofWork]
  have hopen' : ((s.move i place).place i).answer? = none := by
    rw [place_move, hplace.answer?_eq_none]
  have hnodup : (s.order ++ [i]).Nodup :=
    List.nodup_append.mpr ⟨h.nodup, List.pairwise_singleton .., fun j hj k hk heq =>
      hnew (by rwa [← List.mem_singleton.mp hk, ← heq])⟩
  refine h.of_open hopen hopen' (fun j hj => place_move_of_ne s place hj) rfl hnodup (Or.inr rfl)
    fun j => ?_
  by_cases hj : j = i
  · subst hj
    exact .holds rfl ⟨s.order, rfl⟩ ((place_move s j place).symm ▸ hplace)
  · exact (h.stands j).frame (place_move_of_ne s place hj) (by simp [hj]) (by simp [hfree])
      (by simp [Ne.symm hj])

/-- The holder of the lock does something. -/
theorem Sound.works (h : s.Sound m) {i : ι} {place : Place (callers.Answer i)}
    (hholder : s.holder = some i) (hplace : Holds callers i s.committed place) :
    Sound m (s.move i place) := by
  obtain ⟨hlast, hbefore⟩ := (h.stands i).of_holder hholder
  have hopen' : ((s.move i place).place i).answer? = none := by
    rw [place_move, hplace.answer?_eq_none]
  refine h.of_open hbefore.answer?_eq_none hopen' (fun j hj => place_move_of_ne s place hj) rfl
    h.nodup (Or.inl rfl) fun j => ?_
  by_cases hj : j = i
  · subst hj
    exact .holds hholder hlast ((place_move s j place).symm ▸ hplace)
  · have hother : s.holder ≠ some j := by simp [hholder, Ne.symm hj]
    exact (h.stands j).frame (place_move_of_ne s place hj) Iff.rfl hother hother

/-- Someone is dropped. -/
theorem Sound.leaves (h : s.Sound m) {i : ι} (hopen : (s.place i).answer? = none) :
    Sound m { s.move i .gone with holder := s.holder.filter (· ≠ i) } := by
  refine h.of_open hopen (congrArg Place.answer? (place_move s i .gone))
    (fun j hj => place_move_of_ne s .gone hj) rfl h.nodup (Or.inl rfl) fun j => ?_
  by_cases hj : j = i
  · subst hj
    exact .dropped (place_move s j .gone) (by simp [Option.filter_eq_some_iff])
  · by_cases hholder : s.holder = some j
    · obtain ⟨hlast, hplace⟩ := (h.stands j).of_holder hholder
      exact .holds (by simp [hholder, hj]) hlast ((place_move_of_ne s .gone hj).symm ▸ hplace)
    · exact (h.stands j).frame (place_move_of_ne s .gone hj) Iff.rfl hholder
        (by simp [Option.filter_eq_some_iff, hholder])

/-- The holder of the lock finishes. -/
theorem Sound.finishes (h : s.Sound m) {i : ι} (hholder : s.holder = some i) :
    Sound m (s.release i (callers.alone i s.committed).2
      (.outside (.done (callers.alone i s.committed).1))) := by
  obtain ⟨⟨earlier, hlast⟩, hbefore⟩ := (h.stands i).of_holder hholder
  set place : Place (callers.Answer i) := .outside (.done (callers.alone i s.committed).1)
  have hnew : i ∉ earlier := by
    have hnodup := h.nodup
    rw [hlast] at hnodup
    exact fun hi => (List.nodup_append.mp hnodup).2.2 i hi i (List.mem_singleton_self i) rfl
  have hserved : (s.release i (callers.alone i s.committed).2 place).served = s.served ++ [i] := by
    have hrest : earlier.filter (fun j => ((s.move i place).place j).answer?.isSome) =
        earlier.filter fun j => (s.place j).answer?.isSome := by
      refine List.filter_congr fun j hj => ?_
      rw [place_move_of_ne]
      rintro rfl
      exact hnew hj
    change s.order.filter (fun j => ((s.move i place).place j).answer?.isSome) =
      s.order.filter (fun j => (s.place j).answer?.isSome) ++ [i]
    rw [hlast, List.filter_append, List.filter_append, hrest]
    have hdone : place.answer?.isSome = true := rfl
    simp [hdone, hbefore.answer?_eq_none]
  have hcommitted : (callers.alone i s.committed).2 = callers.serial (s.served ++ [i]) m := by
    rw [Callers.serial_concat, ← h.committed_eq]
  refine ⟨h.nodup, fun j => ?_, by rw [hserved]; exact hcommitted, fun before j after hj => ?_⟩
  · by_cases hj : j = i
    · subst hj
      have htook : j ∈ s.order := hlast ▸ List.mem_concat_self
      exact .finished (place_move s j place) htook (by simp [release])
    · exact (h.stands j).frame (place_move_of_ne s place hj) Iff.rfl
        (by simp [hholder, Ne.symm hj]) (by simp [release])
  · rw [hserved] at hj
    change ((s.move i place).place j).answer? = _
    obtain rfl | ⟨after, last, rfl⟩ := after.eq_nil_or_concat
    · obtain ⟨rfl, hlast⟩ := List.append_inj' hj rfl
      obtain rfl := (List.cons.inj hlast).1
      rw [place_move, ← h.committed_eq]
      rfl
    · rw [List.concat_eq_append, ← List.cons_append, ← List.append_assoc] at hj
      obtain ⟨hj, -⟩ := List.append_inj' hj rfl
      have hanswer := h.answer_eq before j after hj
      have hne : j ≠ i := by
        rintro rfl
        rw [hbefore.answer?_eq_none] at hanswer
        cases hanswer
      rw [place_move_of_ne s place hne, hanswer]

/-- A move keeps the order of the callers. -/
theorem Turn.sound (hturn : Turn s s') (h : s.Sound m) : s'.Sound m := by
  cases hturn with
  | idle => exact h
  | takes hfree hwaits hnew hplace => exact h.takes hfree hwaits hnew hplace
  | works hholder hplace => exact h.works hholder hplace
  | finishes hholder => exact h.finishes hholder
  | leaves hopen => exact h.leaves hopen

/-- So does a move of any caller. -/
theorem Sound.step (h : s.Sound m) (move : Move ι) : (s.step move).Sound m := by
  cases move with
  | advance i => exact (turn_advance (h.stands i)).sound h
  | drop i => exact (turn_abandon s i).sound h

/-- Whatever the schedule, the callers that have finished could have come one after the other. -/
theorem sound (callers : Callers ι) (m : Memory) (schedule : List (Move ι)) :
    (after callers m schedule).Sound m := by
  unfold after
  generalize hstart : start callers m = s
  have h : s.Sound m := hstart ▸ Sound.start callers m
  clear hstart
  induction schedule generalizing s with
  | nil => exact h
  | cons move rest ih => exact ih _ (h.step move)

end Shared

end Reckoner
