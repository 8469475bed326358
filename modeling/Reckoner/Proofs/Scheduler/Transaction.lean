import Mathlib.Tactic.Common
import Reckoner.Scheduler
import Reckoner.Store.Memory

/-!
# Running a transaction

What the scheduler does is followed on a memory. The store may be another one, as long as it backs
the memory: it answers as the memory does, and then shows what the memory comes to. A part of a call
runs from one state of the transaction to another and has a value. The rules below follow the parts
of a call one by one; `transact_keep` and `transact_discard` close the transaction.
-/

namespace Reckoner

/-! ## Stores behind a memory -/

/-- What a query needs: a store may refuse some numbers, and an expression that is marked must be
there. -/
def Query.Fits (fits : Binary64 → Prop) (m : Memory) : Query → Prop
  | .resolveOperand _ _ value | .completeTask _ value | .completeExpression _ value => fits value
  | .markExpressionProcessing id => ∃ e ∈ m.expressions, e.id = id
  | _ => True

/-- The answer of the memory to a query of which the store keeps the numbers in its own way. -/
def Memory.answerKept (m : Memory) (kept : Binary64 → Binary64) :
    (q : Query) → Except StoreError (q.Answer × Memory)
  | .resolveOperand id slot value => m.answer (.resolveOperand id slot (kept value))
  | .completeTask id value => m.answer (.completeTask id (kept value))
  | .completeExpression id value => m.answer (.completeExpression id (kept value))
  | q => m.answer q

/-- A store whose data show a memory. -/
structure Backing (σ : Type) where
  store : Store σ
  /-- The time of its writes. -/
  now : Instant
  /-- What it keeps of a number. -/
  kept : Binary64 → Binary64
  /-- Which numbers it keeps at all. -/
  fits : Binary64 → Prop
  /-- When data show a memory. -/
  shows : σ → Memory → Prop
  admits_eq {s : σ} {m : Memory} : shows s m → store.admits s = .ok ()
  /-- It answers as the memory does. -/
  answer_eq {s : σ} {m n : Memory} {q : Query} {a : q.Answer} : shows s m → q.Fits fits m →
    m.answerKept kept q = .ok (a, n) →
      ∃ after, store.answer now q s = .ok (a, after) ∧ shows after n
  /-- The results that it shows are such that it keeps them as they are. -/
  kept_result {s : σ} {m : Memory} {t : Task} {value : Binary64} : shows s m → t ∈ m.tasks →
    t.result = some value → fits value ∧ kept value = value
  /-- It keeps all finite numbers. -/
  fits_of_isFinite {value : Binary64} : value.isFinite = true → fits value
  nonFiniteError_kept (value : Binary64) : nonFiniteError (kept value) = nonFiniteError value

/-- The store in memory shows the memory that it is. -/
def Memory.backing (now : Instant) : Backing Memory where
  store := Memory.store
  now := now
  kept := id
  fits _ := True
  shows := Eq
  admits_eq _ := rfl
  answer_eq {s m n q a} hs _ h := by
    subst hs
    have hsame : s.answerKept id q = s.answer q := by cases q <;> rfl
    exact ⟨n, hsame.symm.trans h, rfl⟩
  kept_result _ _ _ := ⟨trivial, rfl⟩
  fits_of_isFinite _ := trivial
  nonFiniteError_kept _ := rfl

/-- The report with another number. -/
def Report.mapNumbers (f : Binary64 → Binary64) (report : Report) : Report :=
  { report with result := f report.result }

/-- A report fails an expression with either number. -/
theorem Report.failureReason?_mapNumbers {f : Binary64 → Binary64}
    (hf : ∀ x, nonFiniteError (f x) = nonFiniteError x) (report : Report) :
    (report.mapNumbers f).failureReason? = report.failureReason? := by
  unfold failureReason? isFailure mapNumbers
  simp only [hf]

/-! ## Actions -/

namespace Scheduler

variable {σ α β : Type} {b : Backing σ}

/-- An action that a transaction on a store carries out: from a working copy that shows one memory
to one that shows another, with a value. What everybody else sees does not change. -/
def Runs (b : Backing σ) (action : Action α) (m : Memory) (a : α) (after : Memory) : Prop :=
  ∀ committed s, b.shows s m → ∃ events s',
    Call.run (b.store.handle b.now) action ⟨committed, s⟩ =
      ⟨.ok a, events, ⟨committed, s'⟩⟩ ∧ b.shows s' after

namespace Runs

variable {m middle after : Memory} {a : α} {c : β}

/-- A value asks nothing of the store. -/
theorem pure (a : α) (m : Memory) : Runs b (Pure.pure a) m a m :=
  fun _ s hs => ⟨[], s, rfl, hs⟩

/-- An action goes on where the one before it has ended. -/
theorem bind {action : Action α} {f : α → Action β} (hfirst : Runs b action m a middle)
    (hsecond : Runs b (f a) middle c after) : Runs b (action >>= f) m c after := by
  intro committed s hs
  obtain ⟨first, s', hfirst, hs'⟩ := hfirst committed s hs
  obtain ⟨second, s'', hsecond, hs''⟩ := hsecond committed s' hs'
  refine ⟨first ++ second, s'', ?_, hs''⟩
  change Call.run _ (Call.bind action _) _ = _
  rw [Call.run_bind, hfirst]
  change Reply.mk (Call.run _ (f a) _).answer (_ ++ (Call.run _ (f a) _).events)
    (Call.run _ (f a) _).state = _
  rw [hsecond]

/-- A query that the memory answers. -/
theorem ask {q : Query} {answer : q.Answer} (hfits : ∀ s, b.shows s m → q.Fits b.fits m)
    (h : m.answerKept b.kept q = .ok (answer, after)) :
    Runs b (Scheduler.ask q) m answer after := by
  intro committed s hs
  obtain ⟨s', hanswer, hs'⟩ := b.answer_eq hs (hfits s hs) h
  refine ⟨[], s', ?_, hs'⟩
  simp only [Scheduler.ask, Call.run, Store.handle, hanswer]

/-- An event leaves the store alone. -/
theorem log (event : Event) (m : Memory) : Runs b (Scheduler.log event) m () m :=
  fun _ s hs => ⟨[event], s, rfl, hs⟩

/-- A store that shows a memory opens a transaction. -/
theorem begin_eq {s : σ} (hs : b.shows s m) :
    b.store.handle b.now .begin (.of s) = (.ok (), .of s) := by
  simp only [Store.handle, Transacted.of, b.admits_eq hs]

/-- A transaction that is kept. -/
theorem transact_keep {undoFailed : String → Event} {action : Action (Verdict α)}
    (h : Runs b action m (.keep a) after) {s : σ} (hs : b.shows s m) :
    ∃ events s', (transact undoFailed action).run (b.store.handle b.now) (.of s) =
      ⟨.ok a, events, .of s'⟩ ∧ b.shows s' after := by
  obtain ⟨events, s', h, hs'⟩ := h s s hs
  refine ⟨events, s', ?_, hs'⟩
  rw [transact, Call.run, begin_eq hs]
  change Call.run _ (Call.bind action _) (Transacted.mk s s) = _
  rw [Call.run_bind, h]
  change Reply.mk (Except.ok a) (events ++ []) (Transacted.of s') = _
  rw [List.append_nil]

/-- A transaction that is dropped. -/
theorem transact_discard {undoFailed : String → Event} {action : Action (Verdict α)}
    (h : Runs b action m (.discard a) after) {s : σ} (hs : b.shows s m) :
    ∃ events s', (transact undoFailed action).run (b.store.handle b.now) (.of s) =
      ⟨.ok a, events, .of s'⟩ ∧ b.shows s' m := by
  obtain ⟨events, s', h, -⟩ := h s s hs
  refine ⟨events, s, ?_, hs⟩
  rw [transact, Call.run, begin_eq hs]
  change Call.run _ (Call.bind action _) (Transacted.mk s s) = _
  rw [Call.run_bind, h]
  change Reply.mk (Except.ok a) (events ++ []) (Transacted.of s) = _
  rw [List.append_nil]

end Runs

end Scheduler

end Reckoner
