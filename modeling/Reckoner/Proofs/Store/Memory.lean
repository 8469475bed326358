import Mathlib.Tactic.Common
import Reckoner.Store.Memory

/-!
# Rows of the store in memory

Tasks and expressions lie in the order of their numbers, so a number names at most one of each.
Every write but the deletion of tasks replaces one row by another one with the same number.
-/

namespace Reckoner.Memory

/-! ## Numbers -/

/-- Rows lie in the order of their numbers, all of which have been given out. -/
structure Numbered (m : Memory) : Prop where
  /-- The tasks lie in the order of their numbers. -/
  tasks : m.tasks.Pairwise (·.id < ·.id)
  /-- The expressions lie in the order of their numbers. -/
  expressions : m.expressions.Pairwise (·.id < ·.id)
  /-- The number of a task has been given out. -/
  task_le : ∀ t ∈ m.tasks, t.id ≤ m.lastTask
  /-- The number of an expression has been given out. -/
  expression_le : ∀ e ∈ m.expressions, e.id ≤ m.lastExpression

/-- In a list ordered by a key, a key names one entry. -/
theorem eq_of_key_eq {α : Type} {key : α → Int} {rows : List α}
    (h : rows.Pairwise (key · < key ·)) {x y : α} (hx : x ∈ rows) (hy : y ∈ rows)
    (hkey : key x = key y) : x = y := by
  induction rows with
  | nil => cases hx
  | cons row rows ih =>
    obtain ⟨hhead, htail⟩ := List.pairwise_cons.mp h
    rcases List.mem_cons.mp hx with heqx | hx <;> rcases List.mem_cons.mp hy with heqy | hy
    · rw [heqx, heqy]
    · have hlt := hhead y hy
      rw [← heqx, hkey] at hlt
      exact absurd hlt (Int.lt_irrefl _)
    · have hlt := hhead x hx
      rw [← heqy, hkey] at hlt
      exact absurd hlt (Int.lt_irrefl _)
    · exact ih htail hx hy

/-- Lists with the same keys are ordered alike. -/
theorem pairwise_of_map_key_eq {α β : Type} {key : α → Int} {other : β → Int} {xs : List α}
    {ys : List β} (h : xs.map key = ys.map other) (hys : ys.Pairwise (other · < other ·)) :
    xs.Pairwise (key · < key ·) := by
  have hkeys := List.pairwise_map.mpr hys
  rw [← h] at hkeys
  exact List.pairwise_map.mp hkeys

/-- In a list ordered by a key, an entry is found by its key. -/
theorem find?_key_eq_some_iff {α : Type} {key : α → Int} {rows : List α}
    (h : rows.Pairwise (key · < key ·)) {k : Int} {x : α} :
    rows.find? (key · == k) = some x ↔ x ∈ rows ∧ key x = k := by
  constructor
  · intro hfind
    exact ⟨List.mem_of_find?_eq_some hfind, by simpa using List.find?_some hfind⟩
  · rintro ⟨hx, rfl⟩
    cases hfind : rows.find? (key · == key x) with
    | none => exact absurd (List.find?_eq_none.mp hfind x hx) (by simp)
    | some y =>
      have hkey : key y = key x := by simpa using List.find?_some hfind
      rw [eq_of_key_eq h (List.mem_of_find?_eq_some hfind) hx hkey]

namespace Numbered

variable {m : Memory}

/-- A number names one task. -/
theorem eq_of_id_eq (h : m.Numbered) {s t : Task} (hs : s ∈ m.tasks) (ht : t ∈ m.tasks)
    (hid : s.id = t.id) : s = t := eq_of_key_eq h.tasks hs ht hid

/-- A task is found by its number. -/
theorem task?_eq_some_iff (h : m.Numbered) {id : TaskId} {t : Task} :
    m.task? id = some t ↔ t ∈ m.tasks ∧ t.id = id := find?_key_eq_some_iff h.tasks

/-- An expression is found by its number. -/
theorem expression?_eq_some_iff (h : m.Numbered) {id : ExpressionId} {e : Expression} :
    m.expression? id = some e ↔ e ∈ m.expressions ∧ e.id = id :=
  find?_key_eq_some_iff h.expressions

/-- A number names one expression. -/
theorem eq_of_expression_id_eq (h : m.Numbered) {e f : Expression} (he : e ∈ m.expressions)
    (hf : f ∈ m.expressions) (hid : e.id = f.id) : e = f := eq_of_key_eq h.expressions he hf hid

end Numbered

/-! ## Writes -/

/-- The memory with a task in the place of the one with its number. -/
def put (m : Memory) (task : Task) : Memory :=
  { m with tasks := m.tasks.map fun t => if t.id = task.id then task else t }

/-- The memory with an expression changed. -/
def revise (m : Memory) (id : ExpressionId) (f : Expression → Expression) : Memory :=
  { m with expressions := m.expressions.map fun e => if e.id = id then f e else e }

/-- The memory without the tasks of an expression. -/
def drop (m : Memory) (id : ExpressionId) : Memory :=
  { m with tasks := m.tasks.filter (·.expressionId != id) }

variable {m : Memory}

@[simp] theorem expressions_put (m : Memory) (t : Task) : (m.put t).expressions = m.expressions :=
  rfl

/-- Behind a write there is the written task and every other one. -/
theorem mem_put {s t : Task} :
    s ∈ (m.put t).tasks ↔ (s = t ∧ ∃ u ∈ m.tasks, u.id = t.id) ∨ (s ∈ m.tasks ∧ s.id ≠ t.id) := by
  simp only [put, List.mem_map]
  constructor
  · rintro ⟨u, hu, rfl⟩
    by_cases hid : u.id = t.id
    · rw [if_pos hid]
      exact Or.inl ⟨rfl, u, hu, hid⟩
    · rw [if_neg hid]
      exact Or.inr ⟨hu, hid⟩
  · rintro (⟨rfl, u, hu, hid⟩ | ⟨hs, hid⟩)
    · exact ⟨u, hu, if_pos hid⟩
    · exact ⟨s, hs, if_neg hid⟩

/-- A task that is written is there. -/
theorem mem_put_self {s t : Task} (hs : s ∈ m.tasks) (hid : s.id = t.id) : t ∈ (m.put t).tasks :=
  mem_put.mpr (Or.inl ⟨rfl, s, hs, hid⟩)

/-- A task with another number stays. -/
theorem mem_put_of_ne {s t : Task} (hs : s ∈ m.tasks) (hid : s.id ≠ t.id) :
    s ∈ (m.put t).tasks := mem_put.mpr (Or.inr ⟨hs, hid⟩)

/-- The last one of two writes of a task counts. -/
theorem put_put {s t : Task} (hid : s.id = t.id) : (m.put s).put t = m.put t := by
  simp only [put, List.map_map]
  congr 1
  refine List.map_congr_left fun u _ => ?_
  by_cases hu : u.id = t.id
  · simp [hid, hu]
  · simp [hid, hu]

/-- Writing a task as it is changes nothing. -/
theorem put_self (h : m.Numbered) {t : Task} (ht : t ∈ m.tasks) : m.put t = m := by
  have hmap : m.tasks.map (fun u => if u.id = t.id then t else u) = m.tasks := by
    rw [List.map_congr_left (g := id) fun u hu => ?_, List.map_id]
    by_cases hid : u.id = t.id
    · rw [if_pos hid, h.eq_of_id_eq ht hu hid.symm, id]
    · rw [if_neg hid, id]
  unfold put
  rw [hmap]

/-- Writing a task that is not there changes nothing. -/
theorem put_of_forall_ne {t : Task} (h : ∀ s ∈ m.tasks, s.id ≠ t.id) : m.put t = m := by
  have hmap : m.tasks.map (fun u => if u.id = t.id then t else u) = m.tasks :=
    (List.map_congr_left fun u hu => if_neg (h u hu)).trans (List.map_id' _)
  unfold put
  rw [hmap]

/-- A change of a task is a write of the changed task. -/
theorem updateTask_eq (h : m.Numbered) {t : Task} (ht : t ∈ m.tasks) (f : Task → Task)
    (hf : (f t).id = t.id) : m.updateTask t.id f = .ok ((), m.put (f t)) := by
  have hany : m.tasks.any (·.id == t.id) = true := List.any_eq_true.mpr ⟨t, ht, by simp⟩
  unfold updateTask put
  rw [if_pos hany, hf]
  have hmap : m.tasks.map (fun u => if u.id = t.id then f u else u) =
      m.tasks.map (fun u => if u.id = t.id then f t else u) := by
    refine List.map_congr_left fun u hu => ?_
    by_cases hid : u.id = t.id
    · rw [if_pos hid, if_pos hid, h.eq_of_id_eq hu ht hid]
    · rw [if_neg hid, if_neg hid]
  rw [hmap]

/-- A change of an expression that is there. -/
theorem updateExpression_eq {e : Expression} (he : e ∈ m.expressions)
    (f : Expression → Expression) : m.updateExpression e.id f = .ok ((), m.revise e.id f) := by
  have hany : m.expressions.any (·.id == e.id) = true := List.any_eq_true.mpr ⟨e, he, by simp⟩
  unfold updateExpression
  rw [if_pos hany]
  rfl

/-- The expressions behind a change. -/
theorem mem_revise {id : ExpressionId} {f : Expression → Expression} {e : Expression} :
    e ∈ (m.revise id f).expressions ↔
      ∃ old ∈ m.expressions, e = if old.id = id then f old else old := by
  simp only [revise, List.mem_map, eq_comm]

/-- The tasks of other expressions are kept. -/
theorem mem_drop {id : ExpressionId} {t : Task} :
    t ∈ (m.drop id).tasks ↔ t ∈ m.tasks ∧ t.expressionId ≠ id := by
  simp [drop]

namespace Numbered

/-- A write keeps the order. -/
theorem put (h : m.Numbered) (t : Task) : (m.put t).Numbered := by
  have hid : ∀ u : Task, (if u.id = t.id then t else u).id = u.id := by
    intro u
    by_cases hu : u.id = t.id
    · rw [if_pos hu, hu]
    · rw [if_neg hu]
  refine ⟨?_, h.expressions, fun s hs => ?_, h.expression_le⟩
  · refine List.pairwise_map.mpr (h.tasks.imp fun hlt => ?_)
    rwa [hid, hid]
  · obtain ⟨u, hu, rfl⟩ := List.mem_map.mp hs
    rw [hid]
    exact h.task_le u hu

/-- A change of an expression keeps the order. -/
theorem revise (h : m.Numbered) (id : ExpressionId) {f : Expression → Expression}
    (hf : ∀ e, (f e).id = e.id) : (m.revise id f).Numbered := by
  have hid : ∀ e : Expression, (if e.id = id then f e else e).id = e.id := by
    intro e
    split_ifs
    · exact hf e
    · rfl
  refine ⟨h.tasks, ?_, h.task_le, fun e he => ?_⟩
  · refine List.pairwise_map.mpr (h.expressions.imp fun hlt => ?_)
    rwa [hid, hid]
  · obtain ⟨old, hold, rfl⟩ := mem_revise.mp he
    rw [hid]
    exact h.expression_le old hold

/-- A deletion keeps the order. -/
theorem drop (h : m.Numbered) (id : ExpressionId) : (m.drop id).Numbered :=
  ⟨h.tasks.filter _, h.expressions, fun t ht => h.task_le t (mem_drop.mp ht).1, h.expression_le⟩

end Numbered

end Reckoner.Memory
