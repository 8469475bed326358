import Reckoner.Proofs.Database.Literal
import Reckoner.Proofs.Database.Mirror
import Reckoner.Proofs.Scheduler.Numbers
import Reckoner.Proofs.Scheduler.Resolution

/-!
# What users are answered by a database

Expressions and tasks are looked up in tables as in the memory that they show, times apart, and a
new expression is stored in both alike.
-/

namespace Reckoner

/-! ## New expressions -/

/-- Every dependency is in a slot. -/
theorem Operands.exists_get_of_mem {α : Type} {operands : Operands α} {x : α}
    (h : x ∈ operands.toList) : ∃ slot, operands.get slot = x := by
  unfold toList at h
  rcases List.mem_cons.mp h with rfl | h
  · exact ⟨.left, rfl⟩
  · exact ⟨.right, (List.mem_singleton.mp h).symm⟩

namespace Memory

variable {m : Memory}

/-- In a memory in order, tasks have their expression and wait for tasks of the same expression. -/
theorem Orderly.closed (h : m.Orderly) : m.Closed := by
  refine ⟨h.joined.owned, fun t ht id hid => ?_⟩
  obtain ⟨slot, hslot⟩ := Operands.exists_get_of_mem hid
  obtain ⟨_, _, _, _, _, hplaced⟩ := h.exists_placed ht
  obtain ⟨_, -, -, d, hd, hnumber, hsibling, -⟩ := hplaced.exists_earlier hslot
  exact ⟨d, hd, hnumber, hsibling⟩

/-- Numbers are no references. -/
theorem Closed.mapNumbers (h : m.Closed) (f : Binary64 → Binary64) : (m.mapNumbers f).Closed := by
  refine ⟨List.forall_mem_map.mpr fun t ht => ?_, List.forall_mem_map.mpr fun t ht id hid => ?_⟩
  · obtain ⟨e, he, hid⟩ := h.owned t ht
    exact ⟨e.mapNumbers f, List.mem_map_of_mem he, hid⟩
  · obtain ⟨d, hd, hd'⟩ := h.supplied t ht id hid
    exact ⟨d.mapNumbers f, List.mem_map_of_mem hd, hd'⟩

/-- The tasks of a graph have no numbers but its literals. -/
theorem map_mapNumbers_ofGraph {f : Binary64 → Binary64} {graph : TaskGraph}
    (hshaped : graph.Shaped)
    (hliterals : ∀ node ∈ graph.nodes, ∀ slot value, node.args.get slot = some value →
      f value = value) (id : ExpressionId) (base : TaskId) :
    (Task.ofGraph id base graph).map (·.mapNumbers f) = Task.ofGraph id base graph := by
  refine (List.map_congr_left fun t ht => ?_).trans (List.map_id _)
  obtain ⟨i, node, hi, hfresh⟩ := Task.exists_fresh hshaped ht
  have hargs : t.args.map (·.map f) = t.args := by
    refine Operands.ext_get fun slot => ?_
    rw [Operands.get_map, hfresh.args_eq]
    cases hvalue : node.args.get slot with
    | none => rfl
    | some value =>
      rw [Option.map_some, hliterals node (List.mem_of_getElem? hi) slot value hvalue]
  unfold Task.mapNumbers
  rw [hargs, hfresh.result_eq, Option.map_none, ← hfresh.result_eq]
  rfl

/-- A new expression has no number but its literals. -/
theorem create_mapNumbers {f : Binary64 → Binary64} {graph : TaskGraph} (hshaped : graph.Shaped)
    (hliterals : ∀ node ∈ graph.nodes, ∀ slot value, node.args.get slot = some value →
      f value = value)
    (now : Instant) (userId : UserId) (formula : String) :
    (m.mapNumbers f).create now userId formula graph =
      ((m.create now userId formula graph).1,
        (m.create now userId formula graph).2.mapNumbers f) := by
  have hsame := map_mapNumbers_ofGraph hshaped hliterals (m.lastExpression + 1) m.lastTask
  unfold create mapNumbers
  simp only [List.map_append, hsame]
  rfl

end Memory

/-- A new task has no number but its literals, which are kept. -/
theorem Task.kept_of_mem_ofGraph {source : String} {graph : TaskGraph}
    (hgraph : Formula.compile source = .ok graph) {id : ExpressionId} {last : TaskId} {t : Task}
    (ht : t ∈ Task.ofGraph id last graph) : t.Kept := by
  obtain ⟨i, node, hi, hfresh⟩ := Task.exists_fresh (Formula.shaped_of_compile hgraph) ht
  refine ⟨Operands.ext_get fun slot => ?_, by rw [hfresh.result_eq]; rfl⟩
  rw [Operands.get_map, hfresh.args_eq]
  cases hvalue : node.args.get slot with
  | none => rfl
  | some value => exact Formula.stored?_of_compile hgraph (List.mem_of_getElem? hi) hvalue

namespace Tables

/-- Rows made of tasks show them. -/
theorem forall₂_mapIdx {ts : List Task} (h : ∀ t ∈ ts, t.Kept) (place : Nat → Nat) :
    List.Forall₂ TaskRow.Shows (ts.mapIdx fun i t => TaskRow.ofTask (place i) t) ts := by
  induction ts generalizing place with
  | nil => exact .nil
  | cons t ts ih =>
    rw [List.mapIdx_cons]
    exact .cons ⟨⟨place 0, rfl⟩, h t (List.mem_cons_self ..)⟩
      (ih (fun u hu => h u (List.mem_cons_of_mem _ hu)) fun i => place (i + 1))

namespace Shows

variable {users : List UserRow} {t : Tables} {m : Memory}

/-- A new expression is stored in tables as in memory. -/
theorem create (h : t.Shows users m) {now : Instant} (hnow : now.Storable) (other : Instant)
    {userId : UserId} (huser : ∃ user ∈ users, user.id = userId) {formula : String}
    {graph : TaskGraph} (hgraph : Formula.compile formula = .ok graph)
    (hnumbered : (m.create other userId formula graph).2.Numbered)
    (hclosed : (m.create other userId formula graph).2.Closed) :
    ∃ e after, t.create now userId formula graph = .ok (e, after) ∧
      e.timeless = (m.create other userId formula graph).1.timeless ∧
      after.Shows users (m.create other userId formula graph).2 := by
  have hshaped := Formula.shaped_of_compile hgraph
  have hany : t.users.any (·.id == userId) = true := by
    obtain ⟨user, huser, hid⟩ := huser
    rw [h.users_eq]
    exact List.any_eq_true.mpr ⟨user, huser, beq_iff_eq.mpr hid⟩
  have hkept : ∀ u ∈ Task.ofGraph (m.lastExpression + 1) m.lastTask graph, u.Kept :=
    fun u hu => Task.kept_of_mem_ofGraph hgraph hu
  let e := (m.create now userId formula graph).1
  let after : Tables :=
    { t with
      expressions := t.expressions ++ [ExpressionRow.ofExpression e]
      tasks := t.tasks ++
        (Task.ofGraph (m.lastExpression + 1) m.lastTask graph).mapIdx TaskRow.ofTask
      lastExpression := m.lastExpression + 1
      lastTask := m.lastTask + graph.size }
  have hcreate : t.create now userId formula graph = .ok (e, after) := by
    unfold Tables.create
    rw [if_pos hany, h.lastExpression_eq, h.lastTask_eq]
    rfl
  refine ⟨e, after, hcreate, rfl, h.users_eq, ?_, ?_, rfl, rfl, ?_, hnumbered, hclosed⟩
  · exact List.rel_append h.expressions (.cons ⟨⟨now, now, hnow, hnow, rfl⟩, rfl⟩ .nil)
  · exact List.rel_append h.tasks (forall₂_mapIdx hkept id)
  · refine List.pairwise_append.mpr ⟨h.placed, ?_, fun a ha b hb hsame => ?_⟩
    · refine List.pairwise_iff_getElem.mpr fun i j hi hj hlt _ => ?_
      rw [List.getElem_mapIdx, List.getElem_mapIdx]
      exact Int.ofNat_le.mpr (Nat.le_of_lt hlt)
    · -- The number of the new expression is larger than that of any expression with tasks.
      obtain ⟨u, hu, hrow⟩ := exists_of_forall₂ h.tasks.flip ha
      obtain ⟨owner, howner, hid⟩ := h.closed.owned u hu
      obtain ⟨i, hi, rfl⟩ := List.mem_mapIdx.mp hb
      obtain ⟨_, _, _, hfresh⟩ := Task.exists_fresh hshaped (List.getElem_mem hi)
      have hle := h.numbered.expression_le owner howner
      have hnew : owner.id = m.lastExpression + 1 :=
        ((hid.trans hrow.expressionId_eq.symm).trans hsame).trans hfresh.expressionId_eq
      rw [hnew] at hle
      exact absurd hle (Int.not_le_of_gt (Int.lt_succ _))

/-- An expression is found in tables as in memory. -/
theorem find (h : t.Shows users m) (id : ExpressionId) (userId : UserId) :
    ∃ found, t.find id userId = .ok found ∧ found.map Expression.timeless =
      ((m.expression? id).filter (·.userId == userId)).map Expression.timeless := by
  have hrel := h.expression? id
  unfold Tables.find
  generalize t.expression? id = row at hrel ⊢
  generalize m.expression? id = e at hrel ⊢
  cases hrel with
  | none => exact ⟨none, rfl, rfl⟩
  | @some row e hrow =>
    obtain ⟨d, hread, htimeless⟩ := hrow.read_eq
    rw [Option.filter_some, Option.filter_some, hrow.userId_eq]
    split_ifs
    · refine ⟨some d, ?_, congrArg some htimeless⟩
      change (Functor.map some row.read : Except StoreError _) = _
      rw [hread]
      rfl
    · exact ⟨none, rfl, rfl⟩

/-- The expressions of a user are listed from tables as from memory. -/
theorem listByUser (h : t.Shows users m) (userId : UserId) :
    ∃ es, t.listByUser userId = .ok es ∧ es.map Expression.timeless =
      (m.expressions.reverse.filter (·.userId == userId)).map Expression.timeless := by
  refine exists_mapM (List.rel_filter (fun row e hrow => ?_) (List.rel_reverse h.expressions))
    fun row e hrow => hrow.read_eq
  simp only [hrow.userId_eq]

end Shows

end Tables

end Reckoner
