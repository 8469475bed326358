import Reckoner.Proofs.Scheduler.Attempt
import Reckoner.Proofs.Store.Succession

/-!
# Callers in any order

The callers of a shared store that have finished are answered as if they had come one after the
other, in the order in which they took the lock, and leave the same data. No task is handed out to
two of them.
-/

namespace Reckoner

/-! ## Tasks that are ready -/

namespace Memory

variable {m n : Memory}

/-- All operands of a task are there or are results of completed tasks. -/
def Known (m : Memory) (t : Task) : Prop :=
  ∀ slot ∈ t.operation.slots, (t.args.get slot).isSome = true ∨
    ((t.dependencies.get slot).bind m.result?).isSome = true

/-- A pending task that can be claimed. -/
structure Ready (m : Memory) (t : Task) : Prop where
  mem : t ∈ m.tasks
  pending : t.status = .pending
  known : m.Known t

/-- Filling a task makes no operand known. -/
theorem Known.of_fills {s t : Task} (hfills : m.Fills s t) (h : m.Known t) : m.Known s := by
  intro slot hslot
  obtain hfilled | hresult := h slot (hfills.operation_eq ▸ hslot)
  · obtain ⟨value, hvalue⟩ := Option.isSome_iff_exists.mp hfilled
    obtain hbefore | ⟨id, hid, hresult⟩ := hfills.source slot value hvalue
    · exact Or.inl (by rw [hbefore]; rfl)
    · exact Or.inr (by rw [hid, Option.bind_some, hresult]; rfl)
  · exact Or.inr (hfills.dependencies_eq ▸ hresult)

/-- A task that can be filled has known operands. -/
theorem Known.of_fill {t : Task} (h : (m.fill t t.operation.slots).2 = true) : m.Known t :=
  .of_fills (m.fills_fill t t.operation.slots) fun slot hslot =>
    Or.inl (isSome_of_fill h slot ((m.fills_fill t _).operation_eq ▸ hslot))

/-- Operands go by the results alone. -/
theorem Known.congr {t : Task} (h : m.result? = n.result?) : m.Known t ↔ n.Known t := by
  unfold Known
  rw [h]

/-- The way to a claim leaves results, and does not make tasks ready. -/
structure Fetches (m n : Memory) : Prop where
  result_eq : n.result? = m.result?
  source : ∀ u ∈ n.tasks, ∃ s ∈ m.tasks, m.Fills s u

/-- Nothing has been filled yet. -/
theorem Fetches.refl (m : Memory) : m.Fetches m :=
  ⟨rfl, fun u hu => ⟨u, hu, .refl u, rfl, rfl, fun _ _ h => Or.inl h⟩⟩

/-- A ready task has been ready all the time. -/
theorem Fetches.ready (h : m.Fetches n) {u : Task} (hu : n.Ready u) :
    ∃ s, m.Ready s ∧ s.id = u.id := by
  obtain ⟨s, hs, hfills⟩ := h.source u hu.mem
  have hknown := Known.of_fills hfills ((Known.congr h.result_eq).mp hu.known)
  exact ⟨s, ⟨hs, hfills.status_eq.symm.trans hu.pending, hknown⟩, hfills.id_eq.symm⟩

/-- Filling twice is filling. -/
theorem Fills.trans {s t u : Task} (h : m.Fills s t) (h' : m.Fills t u) : m.Fills s u := by
  refine ⟨h.toGrows.trans h'.toGrows, h'.status_eq.trans h.status_eq,
    h'.result_eq.trans h.result_eq, fun slot value hvalue => ?_⟩
  obtain hbefore | ⟨id, hid, hresult⟩ := h'.source slot value hvalue
  · exact h.source slot value hbefore
  · exact Or.inr ⟨id, h.dependencies_eq ▸ hid, hresult⟩

/-- Filling another pending task is part of the way. -/
theorem Fetches.put_fill (h : m.Fetches n) (hn : n.Numbered) {t : Task} (ht : t ∈ n.tasks)
    (hpending : t.status = .pending) (slots : List Slot) :
    m.Fetches (n.put (n.fill t slots).1) := by
  rw [fill_congr h.result_eq]
  have hfills := m.fills_fill t slots
  have hresult := result?_put hn ht hfills.id_eq (by simp [hpending])
    (by simp [hfills.status_eq, hpending])
  refine ⟨hresult.trans h.result_eq, fun u hu => ?_⟩
  rcases mem_put.mp hu with ⟨rfl, -⟩ | ⟨hu, -⟩
  · obtain ⟨s, hs, hs'⟩ := h.source t ht
    exact ⟨s, hs, hs'.trans hfills⟩
  · exact h.source u hu

/-- The task that is claimed was ready, and no task is ready behind the claim that was not. -/
structure Takes (m : Memory) (claimed : Task) (after : Memory) : Prop where
  was_ready : ∃ s, m.Ready s ∧ s.id = claimed.id
  ready : ∀ u, after.Ready u → ∃ s, m.Ready s ∧ s.id = u.id

/-- The way to a claim ends with it. -/
theorem Fetches.takes (h : m.Fetches n) (hn : n.Numbered) {t claimed : Task} (ht : t ∈ n.tasks)
    (hpending : t.status = .pending) (hready : (n.fill t t.operation.slots).2 = true)
    (hclaimed : claimed = { (n.fill t t.operation.slots).1 with status := .processing }) :
    m.Takes claimed ((n.put claimed).mark claimed.expressionId) := by
  have hid : claimed.id = t.id := by
    rw [hclaimed]
    exact (n.fills_fill t _).id_eq
  refine ⟨?_, fun u hu => ?_⟩
  · obtain ⟨s, hs, hsid⟩ := h.ready ⟨ht, hpending, .of_fill hready⟩
    exact ⟨s, hs, hsid.trans hid.symm⟩
  · have hresult : ((n.put claimed).mark claimed.expressionId).result? = n.result? :=
      result?_put hn ht hid (by simp [hpending]) (by simp [hclaimed])
    rcases mem_put.mp hu.mem with ⟨rfl, -⟩ | ⟨hmem, -⟩
    · -- The claimed task is not pending.
      have hpending := hu.pending
      rw [hclaimed] at hpending
      cases hpending
    · exact h.ready ⟨hmem, hu.pending, (Known.congr hresult).mp hu.known⟩

/-- Reading a task takes one that is ready, or leaves everything as it is. -/
theorem claim_takes (h : m.Numbered) :
    m.claim = (none, m) ∨ ∃ claimed, m.claim.1 = some claimed ∧ m.Takes claimed m.claim.2 :=
  @claim_induction m (fun n => n.Numbered ∧ m.Fetches n) m.Takes
    (fun _ _ ⟨hn, hfetches⟩ ht hpending => ⟨hn.put _, hfetches.put_fill hn ht hpending _⟩)
    (fun _ _ _ ⟨hn, hfetches⟩ ht hpending hready hclaimed =>
      hfetches.takes hn ht hpending hready hclaimed) h ⟨h, .refl m⟩

end Memory

/-! ## One caller -/

namespace Job

variable {m : Memory}

/-- The task that a caller has been handed out. -/
def received? : (job : Job) → job.Answer → Option Task
  | read, .ok claimed => claimed
  | _, _ => none

/-- A job keeps rows in order, and makes no task pending whose number has been given out. -/
theorem alone_keeps (now : Instant) (h : m.Numbered) (job : Job) :
    let after := ((job.work now).alone now m).2
    after.Numbered ∧ ∀ id, m.Spent id → after.Spent id := by
  have htransacts : ∀ (α : Type) (undoFailed : String → Event)
      (body : Scheduler.Action (Scheduler.Verdict α)), Scheduler.Guarded body →
      let after := ((Scheduler.transact undoFailed body).run (Memory.store.handle now)
        (.of m)).state.committed
      after.Numbered ∧ ∀ id, m.Spent id → after.Spent id := fun _ undoFailed _ hbody =>
    Scheduler.transact_keeps now (P := fun n => ∀ id, m.Spent id → n.Spent id)
      (fun _ _ hwrites hspent id hm => (hspent id hm).writes hwrites) undoFailed hbody h
      fun _ hm => hm
  cases job with
  | read => exact htransacts _ _ _ Scheduler.guarded_claimReady
  | complete report => exact htransacts _ _ _ (Scheduler.guarded_judge report)
  | create userId formula graph =>
    exact ⟨h.create now userId formula graph, fun _ hm => hm.create now userId formula graph⟩
  | get id userId => exact ⟨h, fun _ hm => hm⟩
  | list userId => exact ⟨h, fun _ hm => hm⟩
  | tasks id => exact ⟨h, fun _ hm => hm⟩

/-- A reader claims a task, if one is ready, or fails and changes nothing. -/
theorem alone_read (now : Instant) (h : m.Numbered) :
    (read.work now).alone now m = (.ok m.claim.1, m.claim.2) ∨
      ((∃ e, ((read.work now).alone now m).1 = .error e) ∧
        ((read.work now).alone now m).2 = m) := Scheduler.readTask_attempt now h

/-- Whoever receives a task has claimed it. -/
theorem claim_eq_of_received? (now : Instant) (h : m.Numbered) {job : Job} {t : Task}
    (hreceived : job.received? ((job.work now).alone now m).1 = some t) :
    m.claim.1 = some t ∧ ((job.work now).alone now m).2 = m.claim.2 := by
  cases job with
  | read =>
    obtain hclaim | ⟨⟨e, hfailed⟩, -⟩ := alone_read now h
    · rw [hclaim] at hreceived ⊢
      exact ⟨hreceived, rfl⟩
    · rw [hfailed] at hreceived
      cases hreceived
  | complete | create | get | list | tasks => cases hreceived

/-- A task is handed out that was pending, and is so no more. -/
theorem spent_of_received? (now : Instant) (h : m.Numbered) {job : Job} {t : Task}
    (hreceived : job.received? ((job.work now).alone now m).1 = some t) :
    ¬m.Spent t.id ∧ ((job.work now).alone now m).2.Spent t.id := by
  obtain ⟨hclaim, hafter⟩ := claim_eq_of_received? now h hreceived
  have hnumbered := (alone_keeps now h job).1
  rw [hafter] at hnumbered ⊢
  obtain hnone | ⟨claimed, hsome, hclaims⟩ := Memory.claim_cases h
  · rw [hnone] at hclaim
    cases hclaim
  · obtain rfl := Option.some.inj (hsome.symm.trans hclaim)
    obtain ⟨s, hs, hpending, hgrows⟩ := hclaims.source
    exact ⟨fun hspent => hspent.not_pending s hs hgrows.id_eq.symm hpending,
      .of_claims hnumbered hclaims⟩

/-- A reading makes no task ready. -/
theorem ready_of_read (now : Instant) (h : m.Numbered) {u : Task}
    (hu : ((read.work now).alone now m).2.Ready u) : ∃ s, m.Ready s ∧ s.id = u.id := by
  obtain hclaim | ⟨-, hsame⟩ := alone_read now h
  · rw [hclaim] at hu
    obtain hnone | ⟨claimed, -, htakes⟩ := Memory.claim_takes h
    · rw [hnone] at hu
      exact ⟨u, hu, rfl⟩
    · exact htakes.ready u hu
  · rw [hsame] at hu
    exact ⟨u, hu, rfl⟩

end Job

/-! ## Callers one after the other -/

namespace Callers

variable {ι : Type} (callers : Callers ι) {m : Memory}

/-- Callers keep rows in order, and make no task pending whose number has been given out. -/
theorem serial_keeps (h : m.Numbered) (order : List ι) :
    (callers.serial order m).Numbered ∧ ∀ id, m.Spent id → (callers.serial order m).Spent id := by
  induction order generalizing m with
  | nil => exact ⟨h, fun _ hm => hm⟩
  | cons i rest ih =>
    obtain ⟨hnumbered, hspent⟩ := (callers.job i).alone_keeps (callers.time i) h
    obtain ⟨hrest, hlater⟩ := ih hnumbered
    exact ⟨hrest, fun id hm => hlater id (hspent id hm)⟩

/-- Readers make no task ready. -/
theorem serial_ready (hjobs : ∀ i, callers.job i = .read) (h : m.Numbered) (order : List ι)
    {u : Task} (hu : (callers.serial order m).Ready u) : ∃ s, m.Ready s ∧ s.id = u.id := by
  induction order generalizing m with
  | nil => exact ⟨u, hu, rfl⟩
  | cons i rest ih =>
    obtain ⟨v, hv, hvid⟩ := ih ((callers.job i).alone_keeps (callers.time i) h).1 hu
    rw [hjobs i] at hv
    obtain ⟨s, hs, hsid⟩ := Job.ready_of_read (callers.time i) h hv
    exact ⟨s, hs, hsid.trans hvid⟩

/-- Nobody receives a task that somebody has received before. -/
theorem id_ne_of_received? (h : m.Numbered) {before between : List ι} {i j : ι} {t u : Task}
    (ht : (callers.job i).received? (callers.alone i (callers.serial before m)).1 = some t)
    (hu : (callers.job j).received?
      (callers.alone j (callers.serial (before ++ i :: between) m)).1 = some u) :
    t.id ≠ u.id := by
  intro hid
  have hbefore := (callers.serial_keeps h before).1
  have hspent := (Job.spent_of_received? (callers.time i) hbefore ht).2
  have hmiddle := ((callers.job i).alone_keeps (callers.time i) hbefore).1
  have hlater := (callers.serial_keeps hmiddle between).2 t.id hspent
  have hserial : callers.serial (before ++ i :: between) m =
      callers.serial between (callers.alone i (callers.serial before m)).2 := List.foldl_append ..
  rw [hserial] at hu
  have hnew := (Job.spent_of_received? (callers.time j) (callers.serial_keeps hmiddle between).1
    hu).1
  exact hnew (hid ▸ hlater)

end Callers

/-! ## Any schedule -/

namespace Shared

variable {ι : Type} {callers : Callers ι} {m : Memory} {s : Shared callers} {i j : ι} {t u : Task}

/-- The task that a caller has been handed out, once it has finished. -/
def received? (s : Shared callers) (i : ι) : Option Task :=
  (s.place i).answer?.bind (callers.job i).received?

/-- What a caller has received it would have received at its place among the others. -/
theorem Sound.received?_eq (h : s.Sound m) {before later : List ι}
    (hserved : s.served = before ++ i :: later) :
    s.received? i = (callers.job i).received? (callers.alone i (callers.serial before m)).1 := by
  rw [received?, h.answer_eq before i later hserved, Option.bind_some]

/-- Whoever has received a task has been served. -/
theorem Sound.exists_served (h : s.Sound m) (ht : s.received? i = some t) :
    ∃ before later, s.served = before ++ i :: later := by
  obtain ⟨answer, hanswer, -⟩ := Option.bind_eq_some_iff.mp ht
  exact List.append_of_mem ((h.mem_served_iff i).mpr (by rw [hanswer]; rfl))

/-- The second one of two callers does not receive what the first one has received. -/
theorem Sound.id_ne (h : s.Sound m) (hm : m.Numbered) {before between later : List ι}
    (hserved : s.served = before ++ i :: (between ++ j :: later)) (ht : s.received? i = some t)
    (hu : s.received? j = some u) : t.id ≠ u.id := by
  rw [h.received?_eq hserved] at ht
  rw [← List.cons_append, ← List.append_assoc] at hserved
  rw [h.received?_eq hserved] at hu
  exact callers.id_ne_of_received? hm ht hu

/-- Nobody receives what somebody else has received. -/
theorem Sound.eq_of_received? (h : s.Sound m) (hm : m.Numbered) (ht : s.received? i = some t)
    (hu : s.received? j = some u) (hid : t.id = u.id) : i = j := by
  by_contra hne
  obtain ⟨before, later, hserved⟩ := h.exists_served ht
  obtain ⟨before', later', hserved'⟩ := h.exists_served hu
  have hj : j ∈ before ++ i :: later := by
    rw [← hserved, hserved']
    exact List.mem_append_right _ (List.mem_cons_self ..)
  rcases List.mem_append.mp hj with hj | hj
  · obtain ⟨first, between, rfl⟩ := List.append_of_mem hj
    rw [List.append_assoc, List.cons_append] at hserved
    exact h.id_ne hm hserved hu ht hid.symm
  · rcases List.mem_cons.mp hj with rfl | hj
    · exact hne rfl
    · obtain ⟨between, last, rfl⟩ := List.append_of_mem hj
      exact h.id_ne hm hserved ht hu hid

/-- What readers receive was ready before the first of them. -/
theorem Sound.exists_ready (h : s.Sound m) (hm : m.Numbered) (hjobs : ∀ i, callers.job i = .read)
    (ht : s.received? i = some t) : ∃ v, m.Ready v ∧ v.id = t.id := by
  obtain ⟨before, later, hserved⟩ := h.exists_served ht
  rw [h.received?_eq hserved] at ht
  have hbefore := (callers.serial_keeps hm before).1
  obtain ⟨hclaim, -⟩ := Job.claim_eq_of_received? (callers.time i) hbefore ht
  obtain hnone | ⟨claimed, hsome, htakes⟩ := Memory.claim_takes hbefore
  · rw [hnone] at hclaim
    cases hclaim
  · obtain rfl := Option.some.inj (hsome.symm.trans hclaim)
    obtain ⟨w, hw, hwid⟩ := htakes.was_ready
    obtain ⟨v, hv, hvid⟩ := callers.serial_ready hjobs hm before hw
    exact ⟨v, hv, hvid.trans hwid⟩

/-- **Callers of one store are served one after the other.** However the steps of any number of
callers mix, and whoever is dropped before it has finished, those that have finished get the answers
and leave the data that they would have got and left one after the other, in the order in which they
took the lock. No task is handed out to two of them; if all are readers and one task is ready, at
most one of them receives a task. -/
theorem serialisable [DecidableEq ι] (callers : Callers ι) (m : Memory)
    (schedule : List (Move ι)) :
    let s := after callers m schedule
    (s.served.Nodup ∧ ∀ i, i ∈ s.served ↔ (s.place i).answer?.isSome = true) ∧
      s.committed = callers.serial s.served m ∧
      (∀ before i later, s.served = before ++ i :: later →
        (s.place i).answer? = some (callers.alone i (callers.serial before m)).1) ∧
      (m.Numbered → ∀ i j t u, s.received? i = some t → s.received? j = some u →
        t.id = u.id → i = j) ∧
      (m.Numbered → (∀ i, callers.job i = .read) → (∃ t, ∀ u, m.Ready u ↔ u = t) →
        ∀ i j t u, s.received? i = some t → s.received? j = some u → i = j) := by
  intro s
  have h : s.Sound m := sound callers m schedule
  refine ⟨⟨h.nodup.filter _, h.mem_served_iff⟩, h.committed_eq, h.answer_eq,
    fun hm i j t u ht hu hid => h.eq_of_received? hm ht hu hid,
    fun hm hjobs ⟨only, honly⟩ i j t u ht hu => ?_⟩
  obtain ⟨v, hv, hvid⟩ := h.exists_ready hm hjobs ht
  obtain ⟨w, hw, hwid⟩ := h.exists_ready hm hjobs hu
  obtain rfl := (honly v).mp hv
  obtain rfl := (honly w).mp hw
  exact h.eq_of_received? hm ht hu (hvid.symm.trans hwid)

/-- A store with one task. -/
def lone : Course where
  time _ := ⟨0, 0⟩
  step k := [.submit 7 "1+2"].getD k .read

/-- Three readers. -/
def readers : Callers (Fin 3) where
  job _ := .read
  time _ := ⟨0, 0⟩

/-- The first reader is dropped in its transaction, while the second one waits for the lock; the
third one comes while the second one holds it. -/
def crowd : List (Move (Fin 3)) :=
  [.advance 0, .advance 0, .advance 1, .advance 0, .drop 0, .advance 1, .advance 2, .advance 1,
    .advance 1, .advance 1, .advance 1, .advance 2, .advance 2, .advance 2]

/-- Its task is ready. -/
theorem ready_lone : ∃ t, ∀ u, (lone.memory 1).Ready u ↔ u = t := by
  obtain ⟨t, htasks, hpending, hfill⟩ : ∃ t, (lone.memory 1).tasks = [t] ∧ t.status = .pending ∧
      ((lone.memory 1).fill t t.operation.slots).2 = true :=
    ⟨_, rfl, by decide +kernel, by decide +kernel⟩
  refine ⟨t, fun u => ⟨fun hu => ?_, ?_⟩⟩
  · have hmem := hu.mem
    rwa [htasks, List.mem_singleton] at hmem
  · rintro rfl
    exact ⟨by simp [htasks], hpending, .of_fill hfill⟩

/-- The second reader receives the task, and the third one none. -/
theorem serialisable_crowd :
    let s := after readers (lone.memory 1) crowd
    s.order = [0, 1, 2] ∧ s.served = [1, 2] ∧ s.committed = lone.memory 2 ∧
      (s.received? 1).map (·.id) = some 1 ∧ s.received? 2 = none := by
  intro s
  obtain ⟨-, -, -, -, hone⟩ := serialisable readers (lone.memory 1) crowd
  have hreceived : (s.received? 1).map (·.id) = some 1 := by decide +kernel
  refine ⟨by decide +kernel, by decide +kernel, by decide +kernel, hreceived, ?_⟩
  obtain ⟨t, ht, -⟩ := Option.map_eq_some_iff.mp hreceived
  cases hu : s.received? 2 with
  | none => rfl
  | some u =>
    have hsame := hone (lone.numbered 1) (fun _ => rfl) ready_lone 1 2 t u ht hu
    cases hsame

end Shared

end Reckoner
