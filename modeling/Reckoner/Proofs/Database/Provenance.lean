import Mathlib.Tactic.Common
import Reckoner.Database.Basic

/-!
# What the scheduler leaves alone

A query of the scheduler rewrites statuses, results and operands, and may remove tasks. It touches
neither users nor keys, and every expression keeps its number, its owner and its formula. So does a
whole call, whether its writes are kept or dropped.
-/

namespace Reckoner

/-- What an expression has from its creation on: its number, its owner and its formula. -/
def ExpressionRow.origin (row : ExpressionRow) : ExpressionId × UserId × String :=
  (row.id, row.userId, row.formula)

/-- What a task has from its creation on: its number, its expression and its position. -/
def TaskRow.origin (row : TaskRow) : TaskId × ExpressionId × Int :=
  (row.id, row.expressionId, row.position)

/-- Nothing has come of it but other statuses, results, errors, times and tasks. -/
structure Tables.Keeps (t after : Tables) : Prop where
  users_eq : after.users = t.users
  keys_eq : after.keys = t.keys
  origins_eq : after.expressions.map (·.origin) = t.expressions.map (·.origin)
  lastUser_eq : after.lastUser = t.lastUser
  lastExpression_eq : after.lastExpression = t.lastExpression

/-- What the queries of the scheduler make of tables: rows are rewritten and keep their origin, and
tasks may be dropped. -/
inductive Tables.Works : Tables → Tables → Prop
  | done (t : Tables) : Works t t
  | task {t after : Tables} (id : TaskId) {f : TaskRow → TaskRow}
    (hf : ∀ row, (f row).origin = row.origin) (rest : Works (t.reviseTask id f).2 after) :
    Works t after
  | expression {t after : Tables} (id : ExpressionId) {f : ExpressionRow → ExpressionRow}
    (hf : ∀ row, (f row).origin = row.origin) (rest : Works (t.reviseExpression id f).2 after) :
    Works t after
  | drop {t after : Tables} (id : TaskId) (rest : Works (t.dropTask id).2 after) : Works t after

namespace Tables.Works

variable {t after : Tables}

/-- One change of a task. -/
theorem reviseTask (t : Tables) (id : TaskId) {f : TaskRow → TaskRow}
    (hf : ∀ row, (f row).origin = row.origin) : t.Works (t.reviseTask id f).2 :=
  .task id hf (.done _)

/-- One change of an expression. -/
theorem reviseExpression (t : Tables) (id : ExpressionId) {f : ExpressionRow → ExpressionRow}
    (hf : ∀ row, (f row).origin = row.origin) : t.Works (t.reviseExpression id f).2 :=
  .expression id hf (.done _)

/-- Tasks that are dropped one after the other. -/
theorem dropCounting (rows : List TaskRow) (unmet : Nat) (t : Tables) :
    t.Works (Tables.dropCounting unmet t rows).2 := by
  induction rows generalizing unmet t with
  | nil => exact .done t
  | cons row rest ih => exact .drop row.id (ih _ _)

/-- The removal of the tasks of an expression. -/
theorem removeTasks {id : ExpressionId} (h : t.removeTasks id = .ok ((), after)) :
    t.Works after := by
  have hworks := dropCounting (t.tasks.filter (·.expressionId == id)) 0 t
  unfold Tables.removeTasks at h
  split at h
  case h_1 left hleft =>
    obtain ⟨-, rfl⟩ := Prod.mk.inj (Except.ok.inj h)
    rwa [hleft] at hworks
  case h_2 => cases h

/-- A change of rows that must be there. -/
theorem affected {changed : Nat × Tables} (h : Tables.affected changed = .ok ((), after))
    (hchanged : t.Works changed.2) : t.Works after := by
  obtain ⟨count, rows⟩ := changed
  cases count with
  | zero => cases h
  | succ n =>
    obtain ⟨-, rfl⟩ := Prod.mk.inj (Except.ok.inj h)
    exact hchanged

/-- Reading. -/
theorem read {α : Type} {found : Except StoreError α} {value : α}
    (h : (found >>= fun value => Except.ok (value, t)) = .ok (value, after)) : t.Works after := by
  cases found with
  | error e => cases h
  | ok found =>
    obtain ⟨-, rfl⟩ := Prod.mk.inj (Except.ok.inj h)
    exact .done t

/-- Any query. -/
theorem answer {now : Instant} {q : Query} {value : q.Answer}
    (h : t.answer now q = .ok (value, after)) : t.Works after := by
  cases q
  case pendingTasks => exact read h
  case getTask => exact read h
  case expressionTasks => exact read h
  case expressionStatus => exact read h
  case resolveOperand id slot value =>
    simp only [Tables.answer] at h
    split at h
    case h_1 => exact affected h (reviseTask t id fun _ => rfl)
    case h_2 => cases h
  case setTaskStatus id status => exact affected h (reviseTask t id fun _ => rfl)
  case completeTask id result => exact affected h (reviseTask t id fun _ => rfl)
  case deleteExpressionTasks id => exact removeTasks h
  case markExpressionProcessing id =>
    obtain ⟨-, rfl⟩ := Prod.mk.inj (Except.ok.inj h)
    refine reviseExpression t id fun row => ?_
    split_ifs <;> rfl
  case completeExpression id result => exact affected h (reviseExpression t id fun _ => rfl)
  case failExpression id error => exact affected h (reviseExpression t id fun _ => rfl)

/-- No number is given out. -/
theorem lastTask_eq (h : t.Works after) : after.lastTask = t.lastTask := by
  induction h with
  | done t => rfl
  | task id hf rest ih | expression id hf rest ih | drop id rest ih => exact ih

/-- The tasks that are left were there before. -/
theorem exists_origin (h : t.Works after) {row : TaskRow} (hrow : row ∈ after.tasks) :
    ∃ old ∈ t.tasks, row.origin = old.origin := by
  induction h with
  | done t => exact ⟨row, hrow, rfl⟩
  | expression id hf rest ih => exact ih hrow
  | @task t after id f hf rest ih =>
    obtain ⟨middle, hmiddle, horigin⟩ := ih hrow
    obtain ⟨old, hold, rfl⟩ := List.mem_map.mp hmiddle
    refine ⟨old, hold, horigin.trans ?_⟩
    split_ifs
    · exact hf old
    · rfl
  | drop id rest ih =>
    obtain ⟨old, hold, horigin⟩ := ih hrow
    exact ⟨old, (List.mem_filter.mp hold).1, horigin⟩

end Tables.Works

namespace Tables.Keeps

variable {t middle after : Tables}

theorem refl (t : Tables) : t.Keeps t := ⟨rfl, rfl, rfl, rfl, rfl⟩

theorem trans (h : t.Keeps middle) (hafter : middle.Keeps after) : t.Keeps after :=
  ⟨hafter.users_eq.trans h.users_eq, hafter.keys_eq.trans h.keys_eq,
    hafter.origins_eq.trans h.origins_eq, hafter.lastUser_eq.trans h.lastUser_eq,
    hafter.lastExpression_eq.trans h.lastExpression_eq⟩

/-- A change of a task. -/
theorem reviseTask (t : Tables) (id : TaskId) (f : TaskRow → TaskRow) :
    t.Keeps (t.reviseTask id f).2 :=
  ⟨rfl, rfl, rfl, rfl, rfl⟩

/-- A task that is dropped. -/
theorem dropTask (t : Tables) (id : TaskId) : t.Keeps (t.dropTask id).2 :=
  ⟨rfl, rfl, rfl, rfl, rfl⟩

/-- A change of an expression that keeps its origin. -/
theorem reviseExpression (t : Tables) (id : ExpressionId) {f : ExpressionRow → ExpressionRow}
    (hf : ∀ row, (f row).origin = row.origin) : t.Keeps (t.reviseExpression id f).2 := by
  refine ⟨rfl, rfl, ?_, rfl, rfl⟩
  simp only [Tables.reviseExpression, List.map_map]
  refine List.map_congr_left fun row _ => ?_
  simp only [Function.comp_apply]
  split_ifs
  · exact hf row
  · rfl

/-- The numbers of expressions are kept. -/
theorem ids_eq (h : t.Keeps after) :
    after.expressions.map (·.id) = t.expressions.map (·.id) := by
  have horigins := congrArg (List.map Prod.fst) h.origins_eq
  rwa [List.map_map, List.map_map] at horigins

/-- Numbers of expressions that have been given out stay so. -/
theorem expression_le (h : t.Keeps after) (hle : ∀ row ∈ t.expressions, row.id ≤ t.lastExpression) :
    ∀ row ∈ after.expressions, row.id ≤ after.lastExpression := by
  intro row hrow
  have hid := List.mem_map_of_mem hrow (f := ExpressionRow.id)
  rw [h.ids_eq] at hid
  obtain ⟨old, hold, hsame⟩ := List.mem_map.mp hid
  rw [h.lastExpression_eq, ← hsame]
  exact hle old hold

/-- Whatever the scheduler does. -/
theorem of_works (h : t.Works after) : t.Keeps after := by
  induction h with
  | done t => exact refl t
  | task id hf rest ih => exact (reviseTask ..).trans ih
  | expression id hf rest ih => exact (reviseExpression _ id hf).trans ih
  | drop id rest ih => exact (dropTask ..).trans ih

end Tables.Keeps

/-- What every query keeps, a call keeps. -/
theorem Call.run_keeps {δ α : Type} {store : Store δ} {now : Instant} {P : δ → Prop}
    (hanswer : ∀ {q : Query} {value : q.Answer} {data after : δ},
      store.answer now q data = .ok (value, after) → P data → P after)
    (call : Call α) {s : Transacted δ} (hcommitted : P s.committed) (hworking : P s.working) :
    P (call.run (store.handle now) s).state.committed := by
  induction call generalizing s with
  | done value => exact hcommitted
  | note event rest ih => exact ih hcommitted hworking
  | ask request next ih =>
    cases request with
    | begin =>
      simp only [Call.run, Store.handle]
      cases store.admits s.committed with
      | ok _ => exact ih _ hcommitted hcommitted
      | error e => exact ih _ hcommitted hworking
    | commit => exact ih _ hworking hworking
    | rollback => exact ih _ hcommitted hcommitted
    | query q =>
      simp only [Call.run, Store.handle]
      cases hreply : store.answer now q s.working with
      | ok reply => exact ih _ hcommitted (hanswer hreply hworking)
      | error e => exact ih _ hcommitted hworking

/-- A query that is answered works on the tables and leaves the connections as they were. -/
theorem Database.works_of_answer {db after : Database} {now : Instant} {q : Query}
    {value : q.Answer} (h : Database.store.answer now q db = .ok (value, after)) :
    ∃ tables, db.tables.Works tables ∧ after = { db with tables } := by
  simp only [Database.store] at h
  cases hreply : db.tables.answer now q with
  | error e =>
    rw [hreply] at h
    cases h
  | ok reply =>
    rw [hreply] at h
    obtain ⟨-, rfl⟩ := Prod.mk.inj (Except.ok.inj h)
    exact ⟨reply.2, .answer hreply, rfl⟩

/-- The tables keep all that, and the connections are as they were. -/
structure Database.Keeps (db after : Database) : Prop where
  tables : db.tables.Keeps after.tables
  readable_eq : after.readable = db.readable
  writable_eq : after.writable = db.writable

namespace Database.Keeps

variable {db middle after : Database}

theorem refl (db : Database) : db.Keeps db := ⟨.refl _, rfl, rfl⟩

/-- A query behind others. -/
theorem answer (h : db.Keeps middle) {now : Instant} {q : Query} {value : q.Answer}
    (hanswer : Database.store.answer now q middle = .ok (value, after)) : db.Keeps after := by
  obtain ⟨tables, hworks, rfl⟩ := Database.works_of_answer hanswer
  exact ⟨h.tables.trans (.of_works hworks), h.readable_eq, h.writable_eq⟩

/-- A call of the scheduler. -/
theorem run {α : Type} (now : Instant) (call : Call α) (db : Database) :
    db.Keeps (call.run (Database.store.handle now) (.of db)).state.committed :=
  call.run_keeps (fun hanswer hkeeps => answer hkeeps hanswer) (refl db) (refl db)

end Database.Keeps

end Reckoner
