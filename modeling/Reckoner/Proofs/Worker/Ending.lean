import Mathlib.Algebra.BigOperators.Group.List.Basic
import Mathlib.Algebra.GroupWithZero.Nat
import Reckoner.Proofs.Worker.Turn

/-!
# The end of a run

Each turn of a pool uses up some of what its workers can still do: a wait of a millisecond, or a
call that the link has something for. `Worker.budget` bounds the turns of one worker; a link that
has something for a call pays for the turns that follow from it. So a pool whose workers wait
between their calls comes to its end within the turns that it is given, and so does a worker alone.
-/

namespace Reckoner

variable {σ : Type}

/-! ## Turns in any order -/

/-- Turns of some workers in any order: the workers and the state of the link at the start, what is
done, and the workers and the state afterwards. Stopped workers stay among the workers. -/
inductive Pool.Turns (c : Circumstances) (link : Link σ) :
    List Worker → σ → List Moment → List Worker → σ → Prop
  | none {workers final : List Worker} {state : σ} (hperm : workers.Perm final) :
      Turns c link workers state [] final state
  | cons {workers others final : List Worker} {w after : Worker} {state middle left : σ}
      {deeds : List Deed} {moments : List Moment} (hworker : workers.Perm (w :: others))
      (hturn : w.advance c link state = (after, deeds, middle))
      (hrest : Turns c link (after :: others) middle moments final left) :
      Turns c link workers state (deeds.map (Moment.mk w.wake) ++ moments) final left

/-- Workers are in no order. -/
theorem Pool.Turns.of_perm {c : Circumstances} {link : Link σ} {workers others final : List Worker}
    {state left : σ} {moments : List Moment} (h : Turns c link workers state moments final left)
    (hperm : others.Perm workers) : Turns c link others state moments final left := by
  cases h with
  | none hfinal => exact .none (hperm.trans hfinal)
  | cons hworker hturn hrest => exact .cons (hperm.trans hworker) hturn hrest

/-- There is a next worker unless there are no workers. -/
theorem Pool.eq_nil_of_takeNext {workers : List Worker} (h : takeNext workers = none) :
    workers = [] := by
  cases workers with
  | nil => rfl
  | cons w rest =>
    unfold takeNext at h
    split at h
    · cases h
    · split_ifs at h

/-- The next worker is one of the workers. -/
theorem Pool.takeNext_perm {workers others : List Worker} {w : Worker}
    (h : takeNext workers = some (w, others)) : workers.Perm (w :: others) := by
  induction workers generalizing w others with
  | nil => cases h
  | cons v rest ih =>
    unfold takeNext at h
    cases hnext : takeNext rest with
    | none =>
      rw [hnext] at h
      cases h
      rw [eq_nil_of_takeNext hnext]
    | some found =>
      obtain ⟨earliest, left⟩ := found
      rw [hnext] at h
      simp only at h
      split_ifs at h
      · cases h
        exact List.Perm.refl _
      · cases h
        exact ((ih hnext).cons v).trans (List.Perm.swap ..)

/-! ## What turns use up -/

/-- A link that has something for only so many fetches: each of them lessens what it has, and no
other call adds to it. The invariant holds of the states that the link comes to. -/
structure Link.Metered (link : Link σ) (inv : σ → Prop) (stock : σ → Nat) : Prop where
  fetch_inv : ∀ state, inv state → inv (link.fetch state).2
  fetch_stock : ∀ state, inv state → stock (link.fetch state).2 ≤ stock state
  /-- A fetch that does not come back empty lessens the stock. -/
  fetch_some : ∀ state, inv state → (link.fetch state).1.1 ≠ .ok none →
    stock (link.fetch state).2 < stock state
  submit_inv : ∀ report state, inv state → inv (link.submit report state).2
  submit_stock : ∀ report state, inv state → stock (link.submit report state).2 ≤ stock state

/-- How many turns a worker has left, at most, if no call has anything for it. -/
def Worker.budget (c : Circumstances) (w : Worker) : Nat :=
  match w.phase with
  | .stopped => 0
  | .fetching (.ok none) => 2 * (c.cancelAt - w.wake) + 1
  | .starting | .pausing | .submitting _ (.ok _) => 2 * (c.cancelAt - w.wake) + 2
  | .fetching (.error _) | .submitting _ (.error _) => 2 * (c.cancelAt - w.wake) + 3
  | .computing _ => 2 * (c.cancelAt - w.wake) + 4
  | .fetching (.ok (some _)) => 2 * (c.cancelAt - w.wake) + 5

namespace Worker

variable {c : Circumstances} {link : Link σ} {inv : σ → Prop} {stock : σ → Nat} {w after : Worker}
  {state left : σ} {deeds : List Deed}

/-- The budget of a free worker. -/
theorem budget_of_isFree (hfree : w.isFree = true) :
    w.budget c = 2 * (c.cancelAt - w.wake) + 2 := by
  unfold isFree at hfree
  unfold budget
  split at hfree <;> simp_all

/-- The budget of a worker that has fetched. -/
theorem budget_le_of_fetching {fetched : Fetched} (hphase : w.phase = .fetching fetched) :
    0 < w.budget c ∧ w.budget c ≤ 2 * (c.cancelAt - w.wake) + 5 ∧
      (fetched = .ok none → w.budget c = 2 * (c.cancelAt - w.wake) + 1) := by
  unfold budget
  rw [hphase]
  match fetched with
  | .error _ | .ok none | .ok (some _) => simp

/-- The budget of a worker that has submitted. -/
theorem budget_le_of_submitting {report : Report} {outcome : Submitted}
    (hphase : w.phase = .submitting report outcome) :
    w.budget c ≤ 2 * (c.cancelAt - w.wake) + 3 := by
  unfold budget
  rw [hphase]
  match outcome with
  | .error _ | .ok _ => simp

/-- A turn keeps the invariant of the link. -/
theorem Turn.keeps_inv (h : w.Turn c link state after deeds left)
    (hmetered : link.Metered inv stock) (hinv : inv state) : inv left := by
  cases h with
  | fetches => exact hmetered.fetch_inv state hinv
  | submits report => exact hmetered.submit_inv report state hinv
  | _ => exact hinv

/-- Every turn uses up some of the budget, and stock that is taken pays for four turns. -/
theorem Turn.budget_lt (h : w.Turn c link state after deeds left)
    (hmetered : link.Metered inv stock) (hpoll : 1 ≤ c.pace.poll) (hinv : inv state)
    (hrunning : w.isStopped = false) :
    after.budget c + 4 * stock left < w.budget c + 4 * stock state := by
  cases h with
  | ended hphase => simp [isStopped, hphase] at hrunning
  | stops hfree =>
    rw [budget_of_isFree hfree]
    simp only [budget]
    omega
  | fetches hfree hearly =>
    have hstock := hmetered.fetch_stock state hinv
    have htaken := hmetered.fetch_some state hinv
    obtain ⟨-, hbudget, hempty⟩ := @budget_le_of_fetching c
      (w.await c (.fetching (link.fetch state).1.1) (link.fetch state).1.2) _ rfl
    have hwake : w.wake ≤
        (w.await c (.fetching (link.fetch state).1.1) (link.fetch state).1.2).wake :=
      Nat.le_max_left ..
    rw [budget_of_isFree hfree]
    by_cases hnone : (link.fetch state).1.1 = .ok none
    · rw [hempty hnone]
      omega
    · have hless := htaken hnone
      omega
  | abandons fetched hphase =>
    have hbudget := (@budget_le_of_fetching c w fetched hphase).1
    have hafter : budget c { w with phase := .stopped } = 0 := rfl
    omega
  | failsFetch e hphase =>
    simp only [budget, hphase, await]
    omega
  | findsNothing hphase hearly =>
    simp only [budget, hphase, await]
    omega
  | receives a hphase =>
    simp only [budget, hphase]
    omega
  | submits report hphase =>
    have hstock := hmetered.submit_stock report state hinv
    have hbudget := @budget_le_of_submitting c
      { w with
        phase := .submitting report (link.submit report state).1.1
        wake := w.wake + (link.submit report state).1.2 } report _ rfl
    have hbefore : w.budget c = 2 * (c.cancelAt - w.wake) + 4 := by simp only [budget, hphase]
    simp only at hbudget
    omega
  | failsSubmit report e hphase =>
    simp only [budget, hphase, await]
    omega

end Worker

/-! ## Runs that end -/

namespace Pool

variable {c : Circumstances} {link : Link σ} {inv : σ → Prop} {stock : σ → Nat}

/-- How many turns some workers have left, at most, with what a link has for them. -/
def budget (c : Circumstances) (stock : Nat) (workers : List Worker) : Nat :=
  (workers.map (·.budget c)).sum + 4 * stock

/-- A worker that has not stopped has a turn left. -/
theorem budget_pos {w : Worker} (hrunning : w.isStopped = false) : 0 < w.budget c := by
  unfold Worker.isStopped at hrunning
  unfold Worker.budget
  split <;> simp_all

/-- The budget of some workers is that of one of them and that of the others. -/
theorem budget_of_perm {workers others : List Worker} {w : Worker}
    (hperm : workers.Perm (w :: others)) (stock : Nat) :
    budget c stock workers = w.budget c + budget c stock others := by
  have hsum := (hperm.map (·.budget c)).sum_eq
  rw [List.map_cons, List.sum_cons] at hsum
  unfold budget
  omega

/-- What a turn uses up of the budget of its worker is used up of that of all workers, whether the
worker stays among them or not. -/
theorem budget_lt_of_perm {workers others : List Worker} {w after : Worker} {before left : Nat}
    (hperm : workers.Perm (w :: others))
    (hless : after.budget c + 4 * left < w.budget c + 4 * before) :
    budget c left others < budget c before workers ∧
      budget c left (others ++ [after]) < budget c before workers := by
  have hfront : (others ++ [after]).Perm (after :: others) := List.perm_append_singleton ..
  rw [budget_of_perm hperm, budget_of_perm hfront]
  unfold budget
  omega

/-- A run takes turns of its workers; if it may take as many as their budget, all of them stop. -/
theorem exists_turns (hmetered : link.Metered inv stock) (fuel latest : Nat)
    (workers stopped : List Worker) (state : σ) (hinv : inv state)
    (hrunning : ∀ w ∈ workers, w.isStopped = false)
    (hstopped : ∀ w ∈ stopped, w.isStopped = true) :
    ∃ final, Turns c link (workers ++ stopped) state
      (runFor c link fuel workers latest state).moments final
      (runFor c link fuel workers latest state).state ∧
      (1 ≤ c.pace.poll → budget c (stock state) workers ≤ fuel →
        ∀ w ∈ final, w.isStopped = true) := by
  induction fuel generalizing latest workers stopped state with
  | zero =>
    refine ⟨_, .none (List.Perm.refl _), fun _ hbudget => ?_⟩
    cases workers with
    | nil => exact hstopped
    | cons w others =>
      have hpos := @budget_pos c w (hrunning w (List.mem_cons_self ..))
      rw [budget_of_perm (List.Perm.refl _)] at hbudget
      omega
  | succ fuel ih =>
    cases hnext : takeNext workers with
    | none =>
      simp only [runFor, hnext]
      rw [eq_nil_of_takeNext hnext]
      exact ⟨stopped, .none (List.Perm.refl _), fun _ _ => hstopped⟩
    | some found =>
      obtain ⟨w, others⟩ := found
      have hperm := takeNext_perm hnext
      obtain ⟨hw, hothers⟩ := List.forall_mem_cons.mp fun v hv => hrunning v (hperm.mem_iff.mpr hv)
      have hturn := Worker.turn c link w state
      simp only [runFor, hnext]
      generalize hadvance : w.advance c link state = turn at hturn
      obtain ⟨after, deeds, left⟩ := turn
      dsimp only at hturn
      have hleft := hturn.keeps_inv hmetered hinv
      -- stopped workers leave the run but stay among the workers of the turns
      cases hafter : after.isStopped with
      | true =>
        simp only [if_true]
        have hmore : ∀ v ∈ after :: stopped, v.isStopped = true :=
          List.forall_mem_cons.mpr ⟨hafter, hstopped⟩
        obtain ⟨final, hturns, hends⟩ := ih (max latest after.wake) others (after :: stopped) left
          hleft hothers hmore
        refine ⟨final, .cons (hperm.append_right stopped) hadvance
          (hturns.of_perm List.perm_middle.symm), fun hpoll hbudget => hends hpoll ?_⟩
        have hless := (budget_lt_of_perm hperm (hturn.budget_lt hmetered hpoll hinv hw)).1
        exact Nat.le_of_lt_succ (Nat.lt_of_lt_of_le hless hbudget)
      | false =>
        simp only [Bool.false_eq_true, if_false]
        have hmore : ∀ v ∈ others ++ [after], v.isStopped = false :=
          List.forall_mem_append.mpr ⟨hothers, List.forall_mem_singleton.mpr hafter⟩
        obtain ⟨final, hturns, hends⟩ := ih latest (others ++ [after]) stopped left hleft hmore
          hstopped
        have hfront : (after :: others).Perm (others ++ [after]) :=
          (List.perm_append_singleton ..).symm
        refine ⟨final, .cons (hperm.append_right stopped) hadvance
          (hturns.of_perm (hfront.append_right stopped)), fun hpoll hbudget => hends hpoll ?_⟩
        have hless := (budget_lt_of_perm hperm (hturn.budget_lt hmetered hpoll hinv hw)).2
        exact Nat.le_of_lt_succ (Nat.lt_of_lt_of_le hless hbudget)

/-- The turns that a pool is given are as many as its workers can take. -/
theorem budget_new_le (link : Link σ) {stock : Nat} {state : σ}
    (hsupply : stock ≤ link.supply state) (power : Nat) :
    budget c stock ((List.range power).map .new) ≤
      fuel c link ((List.range power).map Worker.new).length state := by
  have hsum : (((List.range power).map .new).map (Worker.budget c)).sum =
      power * (2 * c.cancelAt + 2) := by
    rw [List.map_map]
    simp [Function.comp_def, Worker.budget, Worker.new]
  unfold budget fuel
  rw [hsum, List.length_map, List.length_range, Nat.mul_add, Nat.mul_add, Nat.mul_add]
  have hle : power * (2 * c.cancelAt) ≤ 4 * (power * c.cancelAt) := by
    rw [Nat.mul_left_comm]
    omega
  omega

end Pool

/-! ## A worker alone -/

namespace Shift

/-- Each turn before the worker stops uses up some of its budget. -/
theorem budget_add_le (shift : Shift σ) {inv : σ → Prop} {stock : σ → Nat}
    (hmetered : shift.link.Metered inv stock) (hpoll : 1 ≤ shift.circumstances.pace.poll)
    (hinv : inv shift.start) (count : Nat)
    (hrunning : ∀ k < count, (shift.worker k).isStopped = false) :
    inv (shift.before count).2 ∧
      (shift.worker count).budget shift.circumstances + 4 * stock (shift.before count).2 + count ≤
        (shift.worker 0).budget shift.circumstances + 4 * stock shift.start := by
  induction count with
  | zero => exact ⟨hinv, Nat.le_refl _⟩
  | succ count ih =>
    obtain ⟨hleft, hbudget⟩ := ih fun k hk => hrunning k (Nat.lt_succ_of_lt hk)
    have hturn := shift.turn count
    have hless := hturn.budget_lt hmetered hpoll hleft (hrunning count (Nat.lt_succ_self count))
    exact ⟨hturn.keeps_inv hmetered hleft, by omega⟩

/-- A run that may take as many turns as the budget of its worker ends with the turn at which the
worker stops. -/
theorem exists_end (shift : Shift σ) {inv : σ → Prop} {stock : σ → Nat}
    (hmetered : shift.link.Metered inv stock) (hpoll : 1 ≤ shift.circumstances.pace.poll)
    (hinv : inv shift.start) (hsupply : stock shift.start ≤ shift.link.supply shift.start) :
    let run := Worker.run shift.circumstances shift.link shift.id shift.start
    ∃ last, run.moments = shift.during 0 (last + 1) ∧
      (shift.worker last).isStopped = false ∧ (shift.worker (last + 1)).isStopped = true ∧
      run.finishedAt = (shift.worker (last + 1)).wake := by
  obtain ⟨count, hmoments, hrunning, hends⟩ := shift.exists_runFor
    (Pool.fuel shift.circumstances shift.link 1 shift.start) 0 0 rfl
  simp only [Nat.zero_add, Nat.zero_max] at hrunning hends
  have hbudget := (shift.budget_add_le hmetered hpoll hinv count hrunning).2
  have hfuel : (shift.worker 0).budget shift.circumstances + 4 * stock shift.start <
      Pool.fuel shift.circumstances shift.link 1 shift.start := by
    have hnew : (shift.worker 0).budget shift.circumstances =
        2 * (shift.circumstances.cancelAt - 0) + 2 := rfl
    unfold Pool.fuel
    omega
  obtain hcount | ⟨hstopped, hfinished⟩ := hends
  · omega
  · cases count with
    | zero => cases hstopped
    | succ last =>
      exact ⟨last, hmoments, hrunning last (Nat.lt_succ_self last), hstopped, hfinished⟩

end Shift

end Reckoner
