import Mathlib.Data.List.Forall2
import Reckoner.Database.Basic
import Reckoner.Proofs.Database.Removal
import Reckoner.Proofs.Database.Row
import Reckoner.Proofs.Scheduler.Transaction

/-!
# Databases that show a memory

A database shows a memory if its rows are those of the tasks and expressions in memory, times apart.
Every query of the scheduler is answered from the tables as it is answered from memory, and then the
tables show what the memory comes to: `Database.backing` is a store behind a memory.
-/

namespace Reckoner

/-! ## Lists of rows -/

section Rows

variable {α β γ δ : Type} {R : α → β → Prop} {xs : List α} {ys : List β}

/-- What is in one of two lists has its counterpart in the other. -/
theorem exists_of_forall₂ (h : List.Forall₂ R xs ys) {y : β} (hy : y ∈ ys) : ∃ x ∈ xs, R x y := by
  induction h with
  | nil => cases hy
  | cons hfirst _ ih =>
    rcases List.mem_cons.mp hy with rfl | hy
    · exact ⟨_, List.mem_cons_self .., hfirst⟩
    · obtain ⟨x, hx, hxy⟩ := ih hy
      exact ⟨x, List.mem_cons_of_mem _ hx, hxy⟩

/-- What is found in one of two lists has its counterpart where it is looked for in the other. -/
theorem rel_find? {p : α → Bool} {q : β → Bool} (h : List.Forall₂ R xs ys)
    (hpq : ∀ x y, R x y → p x = q y) : Option.Rel R (xs.find? p) (ys.find? q) := by
  induction h with
  | nil => exact .none
  | @cons x y xs ys hfirst _ ih =>
    rw [List.find?_cons, List.find?_cons, hpq x y hfirst]
    cases q y with
    | true => exact .some hfirst
    | false => exact ih

/-- Rows are read one by one. -/
theorem exists_mapM {read : α → Except StoreError γ} {view : γ → δ} {see : β → δ}
    (h : List.Forall₂ R xs ys) (hread : ∀ x y, R x y → ∃ z, read x = .ok z ∧ view z = see y) :
    ∃ zs, xs.mapM read = .ok zs ∧ zs.map view = ys.map see := by
  induction h with
  | nil => exact ⟨[], rfl, rfl⟩
  | @cons x y xs ys hfirst _ ih =>
    obtain ⟨z, hz, hview⟩ := hread x y hfirst
    obtain ⟨zs, hzs, hviews⟩ := ih
    refine ⟨z :: zs, ?_, by rw [List.map_cons, List.map_cons, hview, hviews]⟩
    rw [List.mapM_cons, hz, hzs]
    rfl

end Rows

/-! ## Memories whose references lead somewhere -/

/-- Tasks have their expression, and wait for tasks of the same expression. -/
structure Memory.Closed (m : Memory) : Prop where
  owned : ∀ t ∈ m.tasks, ∃ e ∈ m.expressions, e.id = t.expressionId
  supplied : ∀ t ∈ m.tasks, ∀ id, some id ∈ t.dependencies.toList →
    ∃ d ∈ m.tasks, d.id = id ∧ d.expressionId = t.expressionId

namespace Memory.Closed

variable {m : Memory}

/-- A task is written that refers to what it referred to. -/
theorem put (h : m.Closed) (hm : m.Numbered) {s t : Task} (hs : s ∈ m.tasks) (hid : t.id = s.id)
    (hexpression : t.expressionId = s.expressionId)
    (hdependencies : t.dependencies = s.dependencies) : (m.put t).Closed := by
  have hsame : ∀ d ∈ m.tasks, ∃ d' ∈ (m.put t).tasks, d'.id = d.id ∧
      d'.expressionId = d.expressionId := by
    intro d hd
    by_cases hd' : d.id = t.id
    · obtain rfl := hm.eq_of_id_eq hd hs (hd'.trans hid)
      exact ⟨t, mem_put_self hd hd', hid, hexpression⟩
    · exact ⟨d, mem_put_of_ne hd hd', rfl, rfl⟩
  have hbefore : ∀ u ∈ (m.put t).tasks, ∃ v ∈ m.tasks, u.expressionId = v.expressionId ∧
      u.dependencies = v.dependencies := by
    intro u hu
    rcases mem_put.mp hu with ⟨rfl, -⟩ | ⟨hu, -⟩
    · exact ⟨s, hs, hexpression, hdependencies⟩
    · exact ⟨u, hu, rfl, rfl⟩
  refine ⟨fun u hu => ?_, fun u hu id hdependency => ?_⟩
  · obtain ⟨v, hv, hexpression, -⟩ := hbefore u hu
    rw [hexpression]
    exact h.owned v hv
  · obtain ⟨v, hv, hexpression, hdependencies⟩ := hbefore u hu
    rw [hdependencies] at hdependency
    obtain ⟨d, hd, hid, hsibling⟩ := h.supplied v hv id hdependency
    obtain ⟨d', hd', hid', hsibling'⟩ := hsame d hd
    exact ⟨d', hd', hid'.trans hid, (hsibling'.trans hsibling).trans hexpression.symm⟩

/-- A change of an expression leaves it where it is. -/
theorem revise (h : m.Closed) (id : ExpressionId) {f : Expression → Expression}
    (hf : ∀ e, (f e).id = e.id) : (m.revise id f).Closed := by
  refine ⟨fun t ht => ?_, h.supplied⟩
  obtain ⟨e, he, hid⟩ := h.owned t ht
  refine ⟨if e.id = id then f e else e, mem_revise.mpr ⟨e, he, rfl⟩, ?_⟩
  rw [← hid]
  split_ifs
  · exact hf e
  · rfl

/-- All tasks that wait for a removed one are removed with it. -/
theorem drop (h : m.Closed) (id : ExpressionId) : (m.drop id).Closed := by
  refine ⟨fun t ht => h.owned t (mem_drop.mp ht).1, fun t ht i hi => ?_⟩
  obtain ⟨ht, hother⟩ := mem_drop.mp ht
  obtain ⟨d, hd, hid, hsibling⟩ := h.supplied t ht i hi
  exact ⟨d, mem_drop.mpr ⟨hd, hsibling ▸ hother⟩, hid, hsibling⟩

end Memory.Closed

/-! ## Tables that show a memory -/

namespace Tables

/-- Tables with certain users whose other rows are those of a memory. -/
structure Shows (users : List UserRow) (t : Tables) (m : Memory) : Prop where
  users_eq : t.users = users
  expressions : List.Forall₂ ExpressionRow.Shows t.expressions m.expressions
  tasks : List.Forall₂ TaskRow.Shows t.tasks m.tasks
  lastExpression_eq : t.lastExpression = m.lastExpression
  lastTask_eq : t.lastTask = m.lastTask
  /-- The tasks of an expression lie in the order of their positions. -/
  placed : t.tasks.Pairwise fun a b => a.expressionId = b.expressionId → a.position ≤ b.position
  numbered : m.Numbered
  closed : m.Closed

namespace Shows

variable {users : List UserRow} {t : Tables} {m n : Memory}

/-! ### Reading -/

/-- The row of a task by its number. -/
theorem task? (h : t.Shows users m) (id : TaskId) :
    Option.Rel TaskRow.Shows (t.task? id) (m.task? id) :=
  rel_find? h.tasks fun _ _ hrow => congrArg (· == id) hrow.id_eq

/-- The row of an expression by its number. -/
theorem expression? (h : t.Shows users m) (id : ExpressionId) :
    Option.Rel ExpressionRow.Shows (t.expression? id) (m.expression? id) :=
  rel_find? h.expressions fun _ _ hrow => congrArg (· == id) hrow.id_eq

/-- The rows of tasks are read back. -/
theorem mapM_read {rows : List TaskRow} {ts : List Task} (h : List.Forall₂ TaskRow.Shows rows ts) :
    rows.mapM (·.read) = .ok ts := by
  obtain ⟨us, hus, hviews⟩ := @exists_mapM _ _ _ _ _ _ _ TaskRow.read id id h
    fun row u hrow => ⟨u, hrow.read_eq, rfl⟩
  rw [List.map_id, List.map_id] at hviews
  rw [← hviews]
  exact hus

/-- The tasks of an expression are in their order already. -/
theorem tasksOf_eq (h : t.Shows users m) (id : ExpressionId) :
    t.tasksOf id = t.tasks.filter (·.expressionId == id) := by
  refine List.mergeSort_of_pairwise ?_
  have hplaced := h.placed.filter (·.expressionId == id)
  refine List.Pairwise.imp_of_mem (fun ha hb hle => ?_) hplaced
  have hsame := (beq_iff_eq.mp (List.mem_filter.mp ha).2).trans
    (beq_iff_eq.mp (List.mem_filter.mp hb).2).symm
  exact decide_eq_true (hle hsame)

/-- The tasks of an expression are read back. -/
theorem mapM_tasksOf (h : t.Shows users m) (id : ExpressionId) :
    (t.tasksOf id).mapM (·.read) = .ok (m.tasksOf id) := by
  rw [h.tasksOf_eq]
  refine mapM_read (List.rel_filter (fun row u hrow => ?_) h.tasks)
  simp only [hrow.expressionId_eq]

/-- Different statuses have different texts. -/
theorem text_beq_pending (status : TaskStatus) :
    (status.text == TaskStatus.pending.text) = (status == .pending) := by
  cases status <;> rfl

/-- The pending tasks are read back. -/
theorem mapM_pending (h : t.Shows users m) :
    (t.tasks.filter (·.status == TaskStatus.pending.text)).mapM (·.read) =
      .ok (m.tasks.filter (·.status == .pending)) := by
  refine mapM_read (List.rel_filter (fun row u hrow => ?_) h.tasks)
  simp only [hrow.status_eq, text_beq_pending]

/-- A task is read back. -/
theorem mapM_task? (h : t.Shows users m) (id : TaskId) :
    (t.task? id).mapM (·.read) = .ok (m.task? id) := by
  have hrel := h.task? id
  generalize t.task? id = row at hrel ⊢
  generalize m.task? id = u at hrel ⊢
  cases hrel with
  | none => rfl
  | some hrow =>
    change (Functor.map some (TaskRow.read _) : Except StoreError _) = _
    rw [hrow.read_eq]
    rfl

/-- The status of an expression is read back. -/
theorem mapM_status (h : t.Shows users m) (id : ExpressionId) :
    ((t.expression? id).mapM fun row =>
      (ExpressionStatus.ofText row.status).mapError StoreError.query) =
      .ok ((m.expression? id).map (·.status)) := by
  have hrel := h.expression? id
  generalize t.expression? id = row at hrel ⊢
  generalize m.expression? id = e at hrel ⊢
  cases hrel with
  | none => rfl
  | some hrow =>
    change (Functor.map some ((ExpressionStatus.ofText _).mapError _) : Except StoreError _) = _
    rw [hrow.status_eq, ExpressionStatus.ofText_text]
    rfl

/-! ### Writing -/

/-- A change that reaches a row is answered. -/
theorem affected_eq {changed : Nat × Tables} (h : changed.1 ≠ 0) :
    affected changed = .ok ((), changed.2) := by
  obtain ⟨count, after⟩ := changed
  cases count with
  | zero => exact absurd rfl h
  | succ count => rfl

/-- A change of a task in memory is one of its row, if it keeps what the row refers to. -/
theorem reviseTask (h : t.Shows users m) {id : TaskId} {f : TaskRow → TaskRow} {g : Task → Task}
    (hshows : ∀ row u, row.Shows u → (f row).Shows (g u))
    (hn : m.updateTask id g = .ok ((), n))
    (hplace : ∀ row, (f row).expressionId = row.expressionId ∧ (f row).position = row.position)
    (hkeep : ∀ u, (g u).id = u.id ∧ (g u).expressionId = u.expressionId ∧
      (g u).dependencies = u.dependencies) :
    (t.reviseTask id f).1 ≠ 0 ∧ (t.reviseTask id f).2.Shows users n := by
  obtain ⟨s, hs, rfl⟩ : ∃ s ∈ m.tasks, s.id = id := by
    unfold Memory.updateTask at hn
    split_ifs at hn with hany
    · obtain ⟨s, hs, hid⟩ := List.any_eq_true.mp hany
      exact ⟨s, hs, beq_iff_eq.mp hid⟩
  have hput : n = m.put (g s) := by
    rw [Memory.updateTask_eq h.numbered hs g (hkeep s).1] at hn
    cases hn
    rfl
  have hmap : n = { m with tasks := m.tasks.map fun u => if u.id = s.id then g u else u } := by
    unfold Memory.updateTask at hn
    split_ifs at hn
    cases hn
    rfl
  have hcount : (t.reviseTask s.id f).1 ≠ 0 := by
    obtain ⟨row, hrow, hshown⟩ := exists_of_forall₂ h.tasks hs
    exact Nat.ne_of_gt (List.countP_pos_iff.mpr ⟨row, hrow, beq_iff_eq.mpr hshown.id_eq⟩)
  refine ⟨hcount, h.users_eq, ?_, ?_, ?_, ?_, ?_, hput ▸ h.numbered.put _,
    hput ▸ h.closed.put h.numbered hs (hkeep s).1 (hkeep s).2.1 (hkeep s).2.2⟩
  · rw [hmap]
    exact h.expressions
  · rw [hmap]
    refine List.rel_map (fun row u hrow => ?_) h.tasks
    rw [hrow.id_eq]
    split_ifs
    · exact hshows row u hrow
    · exact hrow
  · rw [hmap]
    exact h.lastExpression_eq
  · rw [hmap]
    exact h.lastTask_eq
  · refine List.pairwise_map.mpr (h.placed.imp fun {a b} hle => ?_)
    have hsame : ∀ row, (if row.id = s.id then f row else row).expressionId = row.expressionId ∧
        (if row.id = s.id then f row else row).position = row.position := by
      intro row
      split_ifs
      · exact hplace row
      · exact ⟨rfl, rfl⟩
    rw [(hsame a).1, (hsame b).1, (hsame a).2, (hsame b).2]
    exact hle

/-- A change of an expression in memory is one of its row. -/
theorem reviseExpression (h : t.Shows users m) {id : ExpressionId}
    {f : ExpressionRow → ExpressionRow} {g : Expression → Expression}
    (hshows : ∀ row e, row.Shows e → (f row).Shows (g e))
    (hn : m.updateExpression id g = .ok ((), n)) (hkeep : ∀ e, (g e).id = e.id) :
    (t.reviseExpression id f).1 ≠ 0 ∧ (t.reviseExpression id f).2.Shows users n := by
  obtain ⟨d, hd, rfl⟩ : ∃ d ∈ m.expressions, d.id = id := by
    unfold Memory.updateExpression at hn
    split_ifs at hn with hany
    · obtain ⟨d, hd, hid⟩ := List.any_eq_true.mp hany
      exact ⟨d, hd, beq_iff_eq.mp hid⟩
  rw [Memory.updateExpression_eq hd g] at hn
  cases hn
  have hcount : (t.reviseExpression d.id f).1 ≠ 0 := by
    obtain ⟨row, hrow, hshown⟩ := exists_of_forall₂ h.expressions hd
    exact Nat.ne_of_gt (List.countP_pos_iff.mpr ⟨row, hrow, beq_iff_eq.mpr hshown.id_eq⟩)
  refine ⟨hcount, h.users_eq, ?_, h.tasks, h.lastExpression_eq, h.lastTask_eq, h.placed,
    h.numbered.revise _ hkeep, h.closed.revise _ hkeep⟩
  refine List.rel_map (fun row e hrow => ?_) h.expressions
  rw [hrow.id_eq]
  split_ifs
  · exact hshows row e hrow
  · exact hrow

/-- Tables that show a memory whose references lead somewhere are closed. -/
theorem tables_closed (h : t.Shows users m) : t.Closed := by
  refine ⟨fun row hrow => ?_, fun row hrow id hdependency => ?_⟩
  · obtain ⟨u, hu, hshown⟩ := exists_of_forall₂ h.tasks.flip hrow
    obtain ⟨e, he, hid⟩ := h.closed.owned u hu
    obtain ⟨owner, howner, hsame⟩ := exists_of_forall₂ h.expressions he
    refine List.find?_isSome.mpr ⟨owner, howner, beq_iff_eq.mpr ?_⟩
    rw [hsame.id_eq, hid, hshown.expressionId_eq]
  · obtain ⟨u, hu, hshown⟩ := exists_of_forall₂ h.tasks.flip hrow
    rw [hshown.dependencies_eq] at hdependency
    obtain ⟨d, hd, hid, hsibling⟩ := h.closed.supplied u hu id hdependency
    obtain ⟨other, hother, hsame⟩ := exists_of_forall₂ h.tasks hd
    refine ⟨other, hother, hsame.id_eq.trans hid, ?_⟩
    rw [hsame.expressionId_eq, hsibling, hshown.expressionId_eq]

/-- The rows of tasks lie in the order of their numbers. -/
theorem tasks_ordered (h : t.Shows users m) : t.tasks.Pairwise (·.id < ·.id) := by
  have hids : t.tasks.map (·.id) = m.tasks.map (·.id) :=
    List.forall₂_eq_eq_eq ▸ List.rel_map (fun _ _ hrow => hrow.id_eq) h.tasks
  have hordered := List.pairwise_map.mpr h.numbered.tasks
  rw [← hids] at hordered
  exact List.pairwise_map.mp hordered

/-- Removing the tasks of an expression is removing their rows. -/
theorem removeTasks (h : t.Shows users m) (id : ExpressionId) :
    t.removeTasks id = .ok ((), t.withoutTasksOf id) ∧
      (t.withoutTasksOf id).Shows users (m.drop id) := by
  refine ⟨h.tables_closed.removeTasks_eq h.tasks_ordered id, h.users_eq, h.expressions, ?_,
    h.lastExpression_eq, h.lastTask_eq, h.placed.filter _, h.numbered.drop id, h.closed.drop id⟩
  refine List.rel_filter (fun row u hrow => ?_) h.tasks
  simp only [hrow.expressionId_eq]

/-! ### Answering -/

/-- Every query is answered from the tables as from the memory that they show. -/
theorem answer_eq (h : t.Shows users m) {now : Instant} (hnow : now.Storable) {q : Query}
    {a : q.Answer} (hfits : q.Fits (·.isNaN = false) m)
    (hanswer : m.answerKept Binary64.plain q = .ok (a, n)) :
    ∃ after, t.answer now q = .ok (a, after) ∧ after.Shows users n := by
  cases q with
  | pendingTasks =>
    cases hanswer
    refine ⟨t, ?_, h⟩
    simp only [Tables.answer, h.mapM_pending]
    rfl
  | getTask id =>
    cases hanswer
    refine ⟨t, ?_, h⟩
    simp only [Tables.answer, h.mapM_task?]
    rfl
  | expressionTasks id =>
    cases hanswer
    refine ⟨t, ?_, h⟩
    simp only [Tables.answer, h.mapM_tasksOf]
    rfl
  | expressionStatus id =>
    cases hanswer
    refine ⟨t, ?_, h⟩
    simp only [Tables.answer, h.mapM_status]
    rfl
  | resolveOperand id slot value =>
    have hanswer : m.answer (.resolveOperand id slot value.plain) = .ok (a, n) := hanswer
    simp only [Tables.answer]
    cases hslot : Slot.ofNumber? slot with
    | none =>
      simp only [Memory.answer, hslot] at hanswer
      cases hanswer
    | some slot =>
      simp only [Memory.answer, hslot] at hanswer
      obtain ⟨hcount, hafter⟩ := h.reviseTask (fun _ _ hrow => hrow.setOperand slot hfits) hanswer
        (fun _ => ⟨rfl, rfl⟩) (fun _ => ⟨rfl, rfl, rfl⟩)
      exact ⟨_, affected_eq hcount, hafter⟩
  | setTaskStatus id status =>
    obtain ⟨hcount, hafter⟩ := h.reviseTask (fun _ _ hrow => hrow.setStatus status) hanswer
      (fun _ => ⟨rfl, rfl⟩) (fun _ => ⟨rfl, rfl, rfl⟩)
    exact ⟨_, affected_eq hcount, hafter⟩
  | completeTask id value =>
    obtain ⟨hcount, hafter⟩ := h.reviseTask (fun _ _ hrow => hrow.complete hfits) hanswer
      (fun _ => ⟨rfl, rfl⟩) (fun _ => ⟨rfl, rfl, rfl⟩)
    exact ⟨_, affected_eq hcount, hafter⟩
  | deleteExpressionTasks id =>
    cases hanswer
    obtain ⟨hremoved, hafter⟩ := h.removeTasks id
    exact ⟨_, hremoved, hafter⟩
  | markExpressionProcessing id =>
    obtain ⟨-, hafter⟩ := h.reviseExpression (fun _ _ hrow => hrow.mark hnow) hanswer
      fun e => by split_ifs <;> rfl
    exact ⟨_, rfl, hafter⟩
  | completeExpression id value =>
    obtain ⟨hcount, hafter⟩ := h.reviseExpression
      (fun _ _ hrow => hrow.complete hnow hfits) hanswer fun _ => rfl
    exact ⟨_, affected_eq hcount, hafter⟩
  | failExpression id error =>
    obtain ⟨hcount, hafter⟩ := h.reviseExpression
      (fun _ _ hrow => hrow.fail hnow error) hanswer fun _ => rfl
    exact ⟨_, affected_eq hcount, hafter⟩

end Shows

end Tables

/-! ## The database as a store -/

namespace Database

/-- An open database whose tables show a memory. -/
structure Shows (users : List UserRow) (db : Database) (m : Memory) : Prop where
  readable : db.readable = true
  writable : db.writable = true
  tables : db.tables.Shows users m

/-- The database as a store behind a memory. It keeps all numbers but the NaNs. -/
def backing (users : List UserRow) (now : Instant) (hnow : now.Storable) : Backing Database where
  store := Database.store
  now := now
  kept := Binary64.plain
  fits value := value.isNaN = false
  shows := Shows users
  admits_eq h := by
    unfold store
    simp only [h.writable, if_true]
  answer_eq h hfits hanswer := by
    obtain ⟨after, hafter, hshows⟩ := h.tables.answer_eq hnow hfits hanswer
    refine ⟨{ tables := after, readable := _, writable := _ }, ?_, h.readable, h.writable, hshows⟩
    unfold store
    simp only [hafter]
    rfl
  kept_result h ht hresult := by
    obtain ⟨row, -, hrow⟩ := exists_of_forall₂ h.tables.tasks ht
    have hkept := hrow.kept.result_eq
    rw [hresult] at hkept
    exact Binary64.of_stored? hkept
  fits_of_isFinite hfinite := by
    unfold Binary64.isFinite at hfinite
    unfold Binary64.isNaN
    rw [beq_eq_false_iff_ne.mpr (bne_iff_ne.mp hfinite), Bool.false_and]
  nonFiniteError_kept := nonFiniteError_plain

end Database

end Reckoner
