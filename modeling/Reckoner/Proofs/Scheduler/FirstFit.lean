import Mathlib.Data.List.Forall2
import Reckoner.Proofs.Scheduler.Resolution

/-!
# First fit

Asking for a task goes through the pending tasks in the order of their numbers. Operands that it
fills on the way change no result, so whether a task is reached ready does not depend on the tasks
before it: the first one whose dependencies are all completed is claimed, and the ones before it
keep what was filled. Behind it nothing has been looked at.
-/

namespace Reckoner

namespace Memory

variable {m n : Memory} {t : Task}

/-! ## What is ready, and what a claim does -/

/-- A pending task whose dependencies are all completed. -/
structure IsReady (m : Memory) (t : Task) : Prop where
  mem : t ∈ m.tasks
  pending : t.status = .pending
  completed : ∀ slot id, t.dependencies.get slot = some id →
    ∃ d ∈ m.tasks, d.id = id ∧ d.status = .completed

/-- What may become of a task that is passed over: empty slots take results of completed
dependencies, and nothing else changes. -/
structure TopsUp (m : Memory) (before after : Task) : Prop where
  eq_args : after = { before with args := after.args }
  slot : ∀ slot, after.args.get slot = before.args.get slot ∨
    before.args.get slot = none ∧ ∃ d ∈ m.tasks, before.dependencies.get slot = some d.id ∧
      d.status = .completed ∧ after.args.get slot = d.result

/-- What becomes of a task when `t` is claimed: pending ones before it are passed over. -/
def Leaves (m : Memory) (t claimed before after : Task) : Prop :=
  if before.id = t.id then after = claimed
  else if before.status = .pending ∧ before.id < t.id then m.TopsUp before after
  else after = before

/-- The claim of the first task that is ready, and all that it changes. -/
structure TakesFirst (m : Memory) (t claimed : Task) (n : Memory) : Prop where
  ready : m.IsReady t
  /-- No other task that is ready has a smaller number. -/
  first : ∀ s, m.IsReady s → t.id ≤ s.id
  claimed_eq : claimed = { t with args := claimed.args, status := .processing }
  /-- Empty slots take the results of their dependencies. -/
  args : ∀ slot, claimed.args.get slot =
    (t.args.get slot).or ((t.dependencies.get slot).bind m.result?)
  tasks : List.Forall₂ (m.Leaves t claimed) m.tasks n.tasks
  expressions_eq : n.expressions = m.expressions.map fun e =>
    if e.id = t.expressionId ∧ e.status = .pending then { e with status := .processing } else e
  lastTask_eq : n.lastTask = m.lastTask
  lastExpression_eq : n.lastExpression = m.lastExpression

/-! ## Tasks that are passed over -/

/-- When not all slots are filled, one of them waits for a result. -/
theorem exists_missing_of_fill {t : Task} {slots : List Slot} (h : (m.fill t slots).2 = false) :
    ∃ slot ∈ slots, t.args.get slot = none ∧ (t.dependencies.get slot).bind m.result? = none := by
  induction slots generalizing t with
  | nil => cases h
  | cons slot rest ih =>
    unfold fill at h
    cases harg : t.args.get slot with
    | some value =>
      rw [harg] at h
      obtain ⟨other, hother, hmissing⟩ := ih h
      exact ⟨other, List.mem_cons_of_mem _ hother, hmissing⟩
    | none =>
      rw [harg] at h
      cases hresult : (t.dependencies.get slot).bind m.result? with
      | none => exact ⟨slot, List.mem_cons_self .., harg, hresult⟩
      | some value =>
        rw [hresult] at h
        obtain ⟨other, hother, hnone, hmissing⟩ := ih h
        have hne : other ≠ slot := by
          rintro rfl
          rw [Operands.get_set_self] at hnone
          cases hnone
        rw [Operands.get_set_ne _ _ hne] at hnone
        exact ⟨other, List.mem_cons_of_mem _ hother, hnone, hmissing⟩

/-- The task with its operands filled as far as they are known. -/
def filled (m : Memory) (t : Task) : Task := (m.fill t t.operation.slots).1

/-- Whether all operands of a task are known. -/
def isFilled (m : Memory) (t : Task) : Bool := (m.fill t t.operation.slots).2

/-- The memory behind some tasks that are passed over. -/
def pass (m : Memory) (ts : List Task) : Memory :=
  { m with tasks := m.tasks.map fun t => if t ∈ ts then m.filled t else t }

/-- What is passed over keeps its number, its status and its result. -/
theorem fills_filled (m : Memory) (t : Task) : m.Fills t (m.filled t) := m.fills_fill t _

@[simp] theorem pass_nil (m : Memory) : m.pass [] = m := by simp [pass]

/-- Passing tasks over changes no result. -/
theorem result?_pass (m : Memory) (ts : List Task) : (m.pass ts).result? = m.result? := by
  funext id
  have htask : (m.pass ts).task? id =
      (m.task? id).map fun t => if t ∈ ts then m.filled t else t := by
    unfold task? pass
    rw [List.find?_map]
    congr 2
    funext t
    by_cases ht : t ∈ ts <;> simp [ht, (m.fills_filled t).id_eq]
  unfold result?
  rw [htask]
  cases m.task? id with
  | none => rfl
  | some t =>
    by_cases ht : t ∈ ts <;> simp [ht, (m.fills_filled t).status_eq, (m.fills_filled t).result_eq]

/-- Filling a pending task changes nothing for the others. -/
theorem fill_put_filled (h : m.Numbered) (ht : t ∈ m.tasks) (hpending : t.status = .pending)
    (s : Task) (slots : List Slot) : (m.put (m.filled t)).fill s slots = m.fill s slots := by
  have hfills := m.fills_filled t
  refine fill_congr (result?_put h ht hfills.id_eq ?_ ?_) s slots <;>
    simp [hfills.status_eq, hpending]

/-- Passing over a task in front of others. -/
theorem pass_cons (h : m.Numbered) (ht : t ∈ m.tasks) (hpending : t.status = .pending)
    {ts : List Task} (hbehind : ∀ s ∈ ts, t.id < s.id) :
    (m.put (m.filled t)).pass ts = m.pass (t :: ts) := by
  have hfills := m.fills_filled t
  have hnew : m.filled t ∉ ts := fun hmem => by
    have hlt := hbehind _ hmem
    rw [hfills.id_eq] at hlt
    exact Int.lt_irrefl _ hlt
  have htasks : (m.put (m.filled t)).tasks =
      m.tasks.map fun s => if s.id = (m.filled t).id then m.filled t else s := rfl
  unfold pass
  rw [htasks, List.map_map]
  refine congrArg (fun tasks => { m with tasks }) (List.map_congr_left fun s hs => ?_)
  have hsame : (m.put (m.filled t)).filled s = m.filled s :=
    congrArg Prod.fst (fill_put_filled h ht hpending s _)
  by_cases hid : s.id = t.id
  · obtain rfl := h.eq_of_id_eq hs ht hid
    simp [hfills.id_eq, hnew]
  · have hne : s ≠ t := fun heq => hid (congrArg Task.id heq)
    simp [hfills.id_eq, hid, hne, hsame]

/-- Tasks whose operands are not all known are passed over. -/
theorem claimFirst_append (h : m.Numbered) {passed rest : List Task}
    (hts : ∀ t ∈ passed, t ∈ m.tasks ∧ t.status = .pending)
    (hsorted : passed.Pairwise (·.id < ·.id)) (hpassed : ∀ t ∈ passed, m.isFilled t = false) :
    m.claimFirst (passed ++ rest) = (m.pass passed).claimFirst rest := by
  induction passed generalizing m with
  | nil => rw [pass_nil, List.nil_append]
  | cons t passed ih =>
    obtain ⟨ht, hpending⟩ := hts t (List.mem_cons_self ..)
    obtain ⟨hbehind, hsorted⟩ := List.pairwise_cons.mp hsorted
    have hready : (m.fill t t.operation.slots).2 = false := hpassed t (List.mem_cons_self ..)
    rw [← pass_cons h ht hpending hbehind, List.cons_append, claimFirst]
    simp only [hready, Bool.false_eq_true, if_false]
    refine ih (h.put _) (pending_behind hts hbehind (m.fills_filled t).id_eq) hsorted fun s hs => ?_
    have hrest := hpassed s (List.mem_cons_of_mem _ hs)
    exact (congrArg Prod.snd (fill_put_filled h ht hpending s _)).trans hrest

/-- The task as it is handed out. -/
def claimed (m : Memory) (t : Task) : Task := { m.filled t with status := .processing }

/-- Behind the tasks that are passed over, the first one whose operands are all known is claimed. -/
theorem claim_eq_some (h : m.Numbered) {passed behind : List Task}
    (hpending : m.tasks.filter (·.status == .pending) = passed ++ t :: behind)
    (hpassed : ∀ s ∈ passed, m.isFilled s = false) (ht : m.isFilled t = true) :
    m.claim = (some (m.claimed t),
      ((m.pass passed).put (m.claimed t)).mark (m.claimed t).expressionId) := by
  obtain ⟨hmem, hsorted⟩ := h.pending
  rw [hpending] at hmem hsorted
  have hfill : (m.pass passed).fill t t.operation.slots = m.fill t t.operation.slots :=
    fill_congr (m.result?_pass passed) t _
  have hready : (m.fill t t.operation.slots).2 = true := ht
  have hfound := @claimFirst_append m h passed (t :: behind)
    (fun s hs => hmem s (List.mem_append_left _ hs)) (List.pairwise_append.mp hsorted).1 hpassed
  rw [claimFirst] at hfound
  simp only [hfill, hready, if_true] at hfound
  rw [claim, hpending, hfound]
  rfl

/-- When no pending task has all its operands, none is claimed. -/
theorem claim_eq_none (h : m.Numbered)
    (hpassed : ∀ t ∈ m.tasks, t.status = .pending → m.isFilled t = false) :
    m.claim = (none, m) := by
  obtain ⟨hmem, hsorted⟩ := h.pending
  have hfound := @claimFirst_append m h _ [] hmem hsorted fun t ht =>
    hpassed t (hmem t ht).1 (hmem t ht).2
  rw [List.append_nil, claimFirst] at hfound
  rw [claim, hfound]

/-- The pending tasks are passed over up to the first one whose operands are all known. -/
theorem Numbered.claim_passed (h : m.Numbered) :
    (m.claim = (none, m) ∧ ∀ t ∈ m.tasks, t.status = .pending → m.isFilled t = false) ∨
      ∃ passed t behind, m.tasks.filter (·.status == .pending) = passed ++ t :: behind ∧
        (∀ s ∈ passed, m.isFilled s = false) ∧ m.isFilled t = true ∧
        m.claim = (some (m.claimed t),
          ((m.pass passed).put (m.claimed t)).mark (m.claimed t).expressionId) := by
  cases hfound : (m.tasks.filter (·.status == .pending)).find? m.isFilled with
  | none =>
    have hmissing : ∀ t ∈ m.tasks, t.status = .pending → m.isFilled t = false := by
      intro t ht hpending
      simpa using List.find?_eq_none.mp hfound t (by simp [ht, hpending])
    exact Or.inl ⟨claim_eq_none h hmissing, hmissing⟩
  | some t =>
    obtain ⟨hfilled, passed, behind, hpending, hpassed⟩ := List.find?_eq_some_iff_append.mp hfound
    have hmissing : ∀ s ∈ passed, m.isFilled s = false := fun s hs => by simpa using hpassed s hs
    exact Or.inr ⟨passed, t, behind, hpending, hmissing, hfilled,
      claim_eq_some h hpending hmissing hfilled⟩

/-! ## On rows in order -/

/-- On rows in order, a pending task is ready exactly when all its operands are known. -/
theorem Orderly.isReady_iff (h : m.Orderly) (ht : t ∈ m.tasks) (hpending : t.status = .pending) :
    m.IsReady t ↔ m.isFilled t = true := by
  obtain ⟨_, _, _, _, _, hplaced⟩ := h.exists_placed ht
  constructor
  · intro hready
    by_contra hmissing
    obtain ⟨slot, hslot, hempty, hresult⟩ :=
      exists_missing_of_fill (Bool.not_eq_true _ ▸ hmissing)
    obtain ⟨d, hd, hdependency⟩ := h.joined.supplied t ht slot hslot hempty
    obtain ⟨d', hd', hid, hcompleted⟩ := hready.completed slot d.id hdependency
    obtain rfl := h.numbered.eq_of_id_eq hd hd' hid.symm
    obtain ⟨value, hvalue⟩ := Option.isSome_iff_exists.mp (h.joined.settled d hd hcompleted)
    have hsome : m.result? d.id = some value :=
      h.numbered.result?_eq_some_iff.mpr ⟨d, hd, rfl, hcompleted, hvalue⟩
    rw [hdependency, Option.bind_some, hsome] at hresult
    cases hresult
  · intro hfills
    refine ⟨ht, hpending, fun slot id hid => ?_⟩
    have hslot : slot ∈ t.operation.slots := by
      by_contra hslot
      rw [(hplaced.eq_none_of_not_mem hslot).2] at hid
      cases hid
    obtain ⟨value, hvalue⟩ := Option.isSome_iff_exists.mp (isSome_of_fill hfills slot hslot)
    obtain hbefore | ⟨id', hid', hresult⟩ := (m.fills_filled t).source slot value hvalue
    · obtain ⟨d, hd, hdid, hcompleted, -⟩ := hplaced.exists_completed h.numbered hid hbefore
      exact ⟨d, hd, hdid, hcompleted⟩
    · obtain rfl := Option.some.inj (hid.symm.trans hid')
      obtain ⟨d, hd, hdid, hcompleted, -⟩ := h.numbered.result?_eq_some_iff.mp hresult
      exact ⟨d, hd, hdid, hcompleted⟩

/-- A task that is claimed has the results of its dependencies in its empty slots. -/
theorem Orderly.args_claimed (h : m.Orderly) (ht : t ∈ m.tasks) (hready : m.isFilled t = true)
    (slot : Slot) : (m.claimed t).args.get slot =
      (t.args.get slot).or ((t.dependencies.get slot).bind m.result?) := by
  obtain ⟨_, _, _, _, _, hplaced⟩ := h.exists_placed ht
  have hfills := m.fills_filled t
  change (m.filled t).args.get slot = _
  cases hbefore : t.args.get slot with
  | some value => exact hfills.args slot value hbefore
  | none =>
    rw [Option.none_or]
    cases hafter : (m.filled t).args.get slot with
    | some value =>
      obtain heq | ⟨id, hid, hresult⟩ := hfills.source slot value hafter
      · cases hbefore.symm.trans heq
      · rw [hid, Option.bind_some, hresult]
    | none =>
      have hslot : slot ∉ t.operation.slots := fun hslot => by
        have hsome : ((m.filled t).args.get slot).isSome = true := isSome_of_fill hready slot hslot
        rw [hafter] at hsome
        cases hsome
      rw [(hplaced.eq_none_of_not_mem hslot).2, Option.bind_none]

/-- A task that is passed over may take results of completed dependencies, and nothing else. -/
theorem Numbered.topsUp_filled (h : m.Numbered) (t : Task) : m.TopsUp t (m.filled t) := by
  have hfills := m.fills_filled t
  refine ⟨?_, fun slot => ?_⟩
  · generalize m.filled t = after at hfills
    obtain ⟨hid, hexpression, hoperation, hdependencies, -⟩ := hfills.toGrows
    obtain ⟨id, expressionId, operation, args, dependencies, status, result⟩ := after
    have hstatus : status = t.status := hfills.status_eq
    have hresult : result = t.result := hfills.result_eq
    subst hid hexpression hoperation hdependencies hstatus hresult
    rfl
  · cases hbefore : t.args.get slot with
    | some value => exact Or.inl (hfills.args slot value hbefore)
    | none =>
      cases hafter : (m.filled t).args.get slot with
      | none => exact Or.inl rfl
      | some value =>
        obtain heq | ⟨id, hid, hresult⟩ := hfills.source slot value hafter
        · cases hbefore.symm.trans heq
        · obtain ⟨d, hd, rfl, hcompleted, hvalue⟩ := h.result?_eq_some_iff.mp hresult
          exact Or.inr ⟨rfl, d, hd, hid, hcompleted, hvalue.symm⟩

/-- The pending tasks before one of them are those with smaller numbers. -/
theorem Numbered.mem_before_iff (h : m.Numbered) {passed behind : List Task}
    (hpending : m.tasks.filter (·.status == .pending) = passed ++ t :: behind) {s : Task}
    (hs : s ∈ m.tasks) : s ∈ passed ↔ s.status = .pending ∧ s.id < t.id := by
  obtain ⟨-, hsorted⟩ := h.pending
  rw [hpending] at hsorted
  obtain ⟨-, hbehind, hbefore⟩ := List.pairwise_append.mp hsorted
  have hmem : s ∈ passed ++ t :: behind ↔ s.status = .pending := by
    rw [← hpending, List.mem_filter, beq_iff_eq]
    exact and_iff_right hs
  constructor
  · exact fun hpassed => ⟨hmem.mp (List.mem_append_left _ hpassed),
      hbefore s hpassed t (List.mem_cons_self ..)⟩
  · rintro ⟨hstatus, hlt⟩
    rcases List.mem_append.mp (hmem.mpr hstatus) with hpassed | hlater
    · exact hpassed
    · rcases List.mem_cons.mp hlater with rfl | hlater
      · exact absurd hlt (Int.lt_irrefl _)
      · exact absurd hlt (Int.lt_asymm ((List.pairwise_cons.mp hbehind).1 s hlater))

/-- What becomes of the tasks when one is claimed and the pending ones before it are passed over. -/
theorem Numbered.leaves (h : m.Numbered) {passed behind : List Task}
    (hpending : m.tasks.filter (·.status == .pending) = passed ++ t :: behind) :
    List.Forall₂ (m.Leaves t (m.claimed t)) m.tasks
      ((m.pass passed).put (m.claimed t)).tasks := by
  have hclaimed : (m.claimed t).id = t.id := (m.fills_filled t).id_eq
  have htasks : ((m.pass passed).put (m.claimed t)).tasks = (m.tasks.map fun s =>
      if s ∈ passed then m.filled s else s).map fun s =>
        if s.id = t.id then m.claimed t else s := by
    rw [← hclaimed]
    rfl
  rw [htasks, List.map_map, List.forall₂_map_right_iff, List.forall₂_same]
  intro s hs
  unfold Leaves
  by_cases hpass : s ∈ passed
  · obtain ⟨hstatus, hlt⟩ := (h.mem_before_iff hpending hs).mp hpass
    have hne := Int.ne_of_lt hlt
    simp only [Function.comp_apply, hpass, if_true, (m.fills_filled s).id_eq, hne, if_false,
      hstatus, hlt, and_self]
    exact h.topsUp_filled s
  · have hlater : ¬ (s.status = .pending ∧ s.id < t.id) := fun hearlier =>
      hpass ((h.mem_before_iff hpending hs).mpr hearlier)
    by_cases hid : s.id = t.id <;> simp [hpass, hid, hlater]

/-- On rows in order, a claim takes the first task that is ready, or there is none. -/
theorem Orderly.claim_firstFit (h : m.Orderly) :
    (m.claim = (none, m) ∧ ∀ t, ¬ m.IsReady t) ∨
      ∃ t claimed n, m.claim = (some claimed, n) ∧ m.TakesFirst t claimed n := by
  obtain ⟨hclaim, hmissing⟩ | ⟨passed, t, behind, hpending, hmissing, hfilled, hclaim⟩ :=
    h.numbered.claim_passed
  · refine Or.inl ⟨hclaim, fun t hready => ?_⟩
    have hfilled := (h.isReady_iff hready.mem hready.pending).mp hready
    rw [hmissing t hready.mem hready.pending] at hfilled
    cases hfilled
  · have hmem : t ∈ m.tasks.filter (·.status == .pending) := by simp [hpending]
    obtain ⟨ht, hstatus⟩ := h.numbered.pending.1 t hmem
    refine Or.inr ⟨t, _, _, hclaim, (h.isReady_iff ht hstatus).mpr hfilled, fun s hs => ?_, ?_,
      h.args_claimed ht hfilled, h.numbered.leaves hpending, ?_, rfl, rfl⟩
    · by_contra hlt
      have hbefore := (h.numbered.mem_before_iff hpending hs.mem).mpr
        ⟨hs.pending, Int.not_le.mp hlt⟩
      have hready := (h.isReady_iff hs.mem hs.pending).mp hs
      rw [hmissing s hbefore] at hready
      cases hready
    · exact congrArg (fun u : Task => { u with status := .processing })
        (h.numbered.topsUp_filled t).eq_args
    · refine List.map_congr_left fun e _ => ?_
      have hexpression : (m.claimed t).expressionId = t.expressionId :=
        (m.fills_filled t).expressionId_eq
      by_cases hid : e.id = t.expressionId <;> simp [hid, hexpression]

end Memory

/-- **A worker is handed the first task that fits, and nothing else changes.** Whatever has been
submitted, asked for and reported: asking for a task answers with none exactly when no pending task
has all its dependencies completed, and then leaves everything as it is. Otherwise the one of these
tasks with the smallest number is claimed, with the results of its dependencies in its empty slots;
its expression is no longer pending, pending tasks before it may have got results of completed
dependencies, and all else is as it was. -/
theorem Course.readTask_firstFit (course : Course) (k : Nat) (now : Instant) :
    let m := course.memory k
    let reply := Scheduler.readTask.run (Memory.store.handle now) (.of m)
    (reply.answer = .ok none ∧ reply.state = .of m ∧ ∀ t, ¬ m.IsReady t) ∨
      ∃ t claimed n, reply.answer = .ok (some claimed) ∧ reply.state = .of n ∧
        m.TakesFirst t claimed n := by
  intro m reply
  have horderly := course.orderly k
  obtain ⟨events, hrun⟩ := Scheduler.readTask_run now horderly.joined
  have hreply : reply = ⟨.ok m.claim.1, events, .of m.claim.2⟩ := hrun
  rw [hreply]
  obtain ⟨hclaim, hnone⟩ | ⟨t, claimed, n, hclaim, htakes⟩ := horderly.claim_firstFit
  · rw [hclaim]
    exact Or.inl ⟨rfl, rfl, hnone⟩
  · rw [hclaim]
    exact Or.inr ⟨t, claimed, n, rfl, rfl, htakes⟩

/-- A product of two sums, of which the first one has been reported on, and a difference. -/
def Course.passing : Course where
  time _ := ⟨0, 0⟩
  step k := [.submit 7 "(1+2)*(3+4)", .submit 8 "5-4", .read, .read,
    .complete (.success 1 1 ⟨0x4008000000000000⟩)].getD k .read

/-- The product is passed over, with its left operand filled; the difference is claimed. -/
example : (Course.passing.memory 6).tasks.map (fun t => (t.id, t.status, t.args.left)) =
    [(1, .completed, some ⟨0x3ff0000000000000⟩), (2, .processing, some ⟨0x4008000000000000⟩),
      (3, .pending, some ⟨0x4008000000000000⟩), (4, .processing, some ⟨0x4014000000000000⟩)] := by
  decide +kernel

end Reckoner
