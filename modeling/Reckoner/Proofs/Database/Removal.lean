import Mathlib.Algebra.BigOperators.Group.List.Basic
import Mathlib.Algebra.GroupWithZero.Nat
import Reckoner.Database.Tables
import Reckoner.Proofs.Store.Memory

/-!
# Removing the tasks of an expression

While the tasks of an expression are dropped one by one, the database keeps count of the references
that lead nowhere: the count is always the number of those in the tables at that moment. So none are
left in the end if tasks refer to tasks of their own expression only.
-/

namespace Reckoner.Tables

/-! ## References that lead nowhere -/

/-- How many references of all tasks lead nowhere. -/
def dangling (t : Tables) : Nat := (t.tasks.map t.danglingFrom).sum

/-- No reference leads nowhere, and tasks wait for tasks of their own expression. -/
structure Closed (t : Tables) : Prop where
  owned : ∀ row ∈ t.tasks, (t.expression? row.expressionId).isSome = true
  supplied : ∀ row ∈ t.tasks, ∀ id, some id ∈ row.dependencies.toList →
    ∃ d ∈ t.tasks, d.id = id ∧ d.expressionId = row.expressionId

/-- The references of a task lead somewhere if its expression and the tasks it waits for are
there. -/
theorem danglingFrom_eq_zero {t : Tables} {row : TaskRow}
    (howned : (t.expression? row.expressionId).isSome = true)
    (hsupplied : ∀ id, some id ∈ row.dependencies.toList → ∃ d ∈ t.tasks, d.id = id) :
    t.danglingFrom row = 0 := by
  have hnone : row.dependencies.toList.countP
      (fun id => id.any fun id => (t.task? id).isNone) = 0 := by
    refine List.countP_eq_zero.mpr fun dependency hdependency hdangles => ?_
    cases dependency with
    | none => cases hdangles
    | some id =>
      obtain ⟨d, hd, hid⟩ := hsupplied id hdependency
      have hmissing : t.tasks.find? (·.id == id) = none := Option.isNone_iff_eq_none.mp hdangles
      exact List.find?_eq_none.mp hmissing d hd (beq_iff_eq.mpr hid)
  unfold danglingFrom
  rw [howned, hnone]
  rfl

/-- Nothing leads nowhere. -/
theorem Closed.dangling_eq {t : Tables} (h : t.Closed) : t.dangling = 0 := by
  refine List.sum_eq_zero fun n hn => ?_
  obtain ⟨row, hrow, rfl⟩ := List.mem_map.mp hn
  refine danglingFrom_eq_zero (h.owned row hrow) fun id hid => ?_
  obtain ⟨d, hd, hdid, -⟩ := h.supplied row hrow id hid
  exact ⟨d, hd, hdid⟩

/-! ## Dropping a task -/

section Drop

variable {t : Tables} {row : TaskRow}

/-- The tables without the task of this number. -/
def without (t : Tables) (row : TaskRow) : Tables := (t.dropTask row.id).2

/-- A dropped task is not found any more. -/
theorem task?_without (t : Tables) (row : TaskRow) (id : TaskId) :
    (t.without row).task? id = if id = row.id then none else t.task? id := by
  unfold task? without dropTask
  rw [List.find?_filter]
  split
  case isTrue h =>
    refine List.find?_eq_none.mpr fun other _ hother => ?_
    simp_all
  case isFalse h =>
    congr 1
    funext other
    by_cases hid : other.id = id
    · simp [hid, h]
    · simp [hid]

/-- A condition that is met in one of two ways is counted by the ways. -/
theorem countP_eq_add {α : Type} {p q r : α → Bool}
    (h : ∀ x, (if p x then 1 else 0) = (if q x then 1 else 0) + if r x then 1 else 0)
    (xs : List α) : xs.countP p = xs.countP q + xs.countP r := by
  induction xs with
  | nil => rfl
  | cons x xs ih =>
    have hx := h x
    rw [List.countP_cons, List.countP_cons, List.countP_cons]
    omega

/-- What leads to a dropped task leads nowhere from then on. -/
theorem danglingFrom_without (h : (t.task? row.id).isSome = true) (other : TaskRow) :
    (t.without row).danglingFrom other =
      t.danglingFrom other + other.dependencies.toList.count (some row.id) := by
  have hexpression : (t.without row).expression? other.expressionId =
      t.expression? other.expressionId := rfl
  have hcount : other.dependencies.toList.countP
      (fun id => id.any fun id => ((t.without row).task? id).isNone) =
      other.dependencies.toList.countP (fun id => id.any fun id => (t.task? id).isNone) +
        other.dependencies.toList.count (some row.id) := by
    refine countP_eq_add (fun dependency => ?_) _
    cases dependency with
    | none => rfl
    | some id =>
      have hfound : (t.task? row.id).isNone = false := Option.isNone_eq_false_iff.mpr h
      by_cases hid : id = row.id
      · simp [task?_without, hid, hfound]
      · simp [task?_without, hid]
  unfold danglingFrom
  rw [hexpression, hcount, Nat.add_assoc]

/-- In rows that are ordered by their numbers, one row is taken out by its number. -/
theorem perm_cons_filter {rows : List TaskRow} (h : rows.Pairwise (·.id < ·.id))
    (hrow : row ∈ rows) : (row :: rows.filter (·.id != row.id)).Perm rows := by
  induction rows with
  | nil => cases hrow
  | cons first rest ih =>
    obtain ⟨hfirst, hrest⟩ := List.pairwise_cons.mp h
    rcases List.mem_cons.mp hrow with rfl | hmem
    · have hkept : rest.filter (·.id != row.id) = rest :=
        List.filter_eq_self.mpr fun other hother =>
          bne_iff_ne.mpr (Int.ne_of_gt (hfirst other hother))
      rw [List.filter_cons_of_neg (by simp), hkept]
    · have hne : (first.id != row.id) = true := bne_iff_ne.mpr (Int.ne_of_lt (hfirst row hmem))
      rw [@List.filter_cons_of_pos _ (·.id != row.id) first rest hne]
      exact (List.Perm.swap ..).trans ((ih hrest hmem).cons first)

/-- Dropping a task changes the count as it is kept. -/
theorem dangling_without (h : t.tasks.Pairwise (·.id < ·.id)) (hrow : row ∈ t.tasks) :
    (t.without row).dangling = t.dangling - t.danglingFrom row + t.referencesTo row.id := by
  have hfound : (t.task? row.id).isSome = true :=
    List.find?_isSome.mpr ⟨row, hrow, beq_self_eq_true _⟩
  have hbefore : t.dangling = t.danglingFrom row +
      ((t.tasks.filter (·.id != row.id)).map t.danglingFrom).sum := by
    have hperm := ((perm_cons_filter h hrow).map t.danglingFrom).sum_eq
    rw [List.map_cons, List.sum_cons] at hperm
    exact hperm.symm
  have hafter : (t.without row).dangling =
      ((t.tasks.filter (·.id != row.id)).map t.danglingFrom).sum + t.referencesTo row.id := by
    have hsum : (t.without row).dangling = ((t.tasks.filter (·.id != row.id)).map fun other =>
        t.danglingFrom other + other.dependencies.toList.count (some row.id)).sum :=
      congrArg List.sum (List.map_congr_left fun other _ => danglingFrom_without hfound other)
    rw [hsum, List.sum_map_add, referencesTo, List.count_flatMap]
    rfl
  rw [hafter, hbefore, Nat.add_sub_cancel_left]

end Drop

/-! ## Dropping tasks -/

/-- The tables without some tasks. -/
def withoutAll (t : Tables) (rows : List TaskRow) : Tables := rows.foldl without t

/-- Which tasks are left. -/
theorem tasks_withoutAll (t : Tables) (rows : List TaskRow) :
    t.withoutAll rows =
      { t with tasks := t.tasks.filter fun other => rows.all (·.id != other.id) } := by
  induction rows generalizing t with
  | nil => simp [withoutAll]
  | cons row rest ih =>
    have hrest := ih (t.without row)
    unfold withoutAll at hrest ⊢
    rw [List.foldl_cons, hrest]
    simp [without, dropTask, List.filter_filter, bne_comm, Bool.and_comm]

/-- The count is at every moment the number of references that lead nowhere. -/
theorem dropCounting_dangling {t : Tables} {rows : List TaskRow}
    (h : t.tasks.Pairwise (·.id < ·.id)) (hrows : rows ⊆ t.tasks)
    (hordered : rows.Pairwise (·.id < ·.id)) :
    dropCounting t.dangling t rows = ((t.withoutAll rows).dangling, t.withoutAll rows) := by
  induction rows generalizing t with
  | nil => rfl
  | cons row rest ih =>
    obtain ⟨hrow, hrest⟩ := List.cons_subset.mp hrows
    obtain ⟨hbehind, hordered⟩ := List.pairwise_cons.mp hordered
    have hleft : rest ⊆ (t.without row).tasks := fun other hother =>
      List.mem_filter.mpr ⟨hrest hother, bne_iff_ne.mpr (Int.ne_of_gt (hbehind other hother))⟩
    rw [dropCounting, ← dangling_without h hrow]
    exact ih (h.filter _) hleft hordered

/-- The tables without the tasks of an expression. -/
def withoutTasksOf (t : Tables) (id : ExpressionId) : Tables :=
  { t with tasks := t.tasks.filter (·.expressionId != id) }

/-- Without the tasks of one expression, all others still have what they refer to. -/
theorem Closed.withoutTasksOf {t : Tables} (h : t.Closed) (id : ExpressionId) :
    (t.withoutTasksOf id).Closed := by
  refine ⟨fun row hrow => h.owned row (List.mem_of_mem_filter hrow), fun row hrow i hi => ?_⟩
  obtain ⟨hrow, hother⟩ := List.mem_filter.mp hrow
  obtain ⟨d, hd, hid, hexpression⟩ := h.supplied row hrow i hi
  exact ⟨d, List.mem_filter.mpr ⟨hd, by rw [hexpression]; exact hother⟩, hid, hexpression⟩

/-- Dropping the tasks of an expression leaves those of the others. -/
theorem withoutAll_tasksOf {t : Tables} (h : t.tasks.Pairwise (·.id < ·.id)) (id : ExpressionId) :
    t.withoutAll (t.tasks.filter (·.expressionId == id)) = t.withoutTasksOf id := by
  rw [tasks_withoutAll, Tables.withoutTasksOf]
  congr 1
  refine List.filter_congr fun other hother => ?_
  rw [Bool.eq_iff_iff, List.all_eq_true, bne_iff_ne]
  constructor
  · intro hall heq
    have hmem : other ∈ t.tasks.filter (·.expressionId == id) :=
      List.mem_filter.mpr ⟨hother, beq_iff_eq.mpr heq⟩
    exact bne_iff_ne.mp (hall other hmem) rfl
  · intro hne row hrow
    obtain ⟨hrow, hexpression⟩ := List.mem_filter.mp hrow
    refine bne_iff_ne.mpr fun heq => hne ?_
    rw [← Memory.eq_of_key_eq h hrow hother heq]
    exact beq_iff_eq.mp hexpression

/-- Removing the tasks of an expression never fails on closed tables. -/
theorem Closed.removeTasks_eq {t : Tables} (h : t.Closed)
    (hordered : t.tasks.Pairwise (·.id < ·.id)) (id : ExpressionId) :
    t.removeTasks id = .ok ((), t.withoutTasksOf id) := by
  have hsubset : t.tasks.filter (·.expressionId == id) ⊆ t.tasks := List.filter_subset_self _
  have hcount := dropCounting_dangling hordered hsubset (hordered.filter _)
  rw [h.dangling_eq, withoutAll_tasksOf hordered, (h.withoutTasksOf id).dangling_eq] at hcount
  simp only [removeTasks, hcount]

end Reckoner.Tables
