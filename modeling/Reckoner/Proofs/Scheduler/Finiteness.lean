import Reckoner.Proofs.Formula.Magnitude
import Reckoner.Proofs.Scheduler.Completion
import Reckoner.Proofs.Scheduler.Lifecycle
import Reckoner.Proofs.Scheduler.Resolution

/-!
# Which stored numbers are finite

A result is looked at before it is stored, so every result of a task or an expression is finite,
whatever is reported. A literal is not: it is stored as it was read. So an operand is finite unless
it is a literal whose numeral overflows, and then it is infinity; and all that a course ever stores
or hands out is finite exactly when no formula with such a numeral is stored.
-/

namespace Reckoner

/-- All operands of a task are finite. -/
def Task.FiniteArgs (t : Task) : Prop :=
  ∀ slot value, t.args.get slot = some value → value.isFinite = true

/-- Everything that is stored is finite. -/
structure Memory.Finite (m : Memory) : Prop where
  operand : ∀ t ∈ m.tasks, t.FiniteArgs
  taskResult : ∀ t ∈ m.tasks, ∀ value, t.result = some value → value.isFinite = true
  expressionResult : ∀ e ∈ m.expressions, ∀ value, e.result = some value → value.isFinite = true

namespace Course

variable {course : Course} {k : Nat}

/-! ## Results -/

/-- The result of a task is finite, whatever was reported. -/
theorem isFinite_of_task {t : Task} (ht : t ∈ (course.memory k).tasks) {value : Binary64}
    (hvalue : t.result = some value) : value.isFinite = true := by
  obtain ⟨_, _, _, _, _, hplaced⟩ := (course.orderly k).exists_placed ht
  exact (hplaced.realizes.result value hvalue).1

/-- The result of an expression is finite, whatever was reported. -/
theorem isFinite_of_expression {e : Expression} (he : e ∈ (course.memory k).expressions)
    {value : Binary64} (hvalue : e.result = some value) : value.isFinite = true :=
  (lives he).result_finite value hvalue

/-! ## Operands -/

/-- An operand that is not finite is the infinity that a numeral of the formula is read as. -/
theorem operand_cases {t : Task} (ht : t ∈ (course.memory k).tasks) {slot : Slot}
    {value : Binary64} (hvalue : t.args.get slot = some value) :
    value.isFinite = true ∨ value = Binary64.infinity ∧ t.dependencies.get slot = none ∧
      ∃ e ∈ (course.memory k).expressions, e.id = t.expressionId ∧ Formula.Overflows e.formula := by
  obtain ⟨e, graph, base, i, node, hplaced⟩ := (course.orderly k).exists_placed ht
  obtain hliteral | ⟨j, hj, hresult⟩ := hplaced.realizes.operand slot value hvalue
  · obtain ⟨n, hn, rfl⟩ := (Formula.literal_iff_of_compile hplaced.compiled).mp
      ⟨node, hplaced.mem_nodes, slot, hliteral⟩
    by_cases hoverflows : n.Overflows
    · refine Or.inr ⟨hoverflows.value_eq, ?_, e, hplaced.mem, hplaced.id_eq, n, hn, hoverflows⟩
      have hnode : node.dependencies.get slot = none := by
        refine Option.eq_none_iff_forall_ne_some.mpr fun j hj => ?_
        rw [(hplaced.shaped.node i node hplaced.node_eq).exclusive slot j hj] at hliteral
        cases hliteral
      rw [hplaced.realizes.dependencies_eq, hnode, Option.map_none]
    · exact Or.inl (n.isFinite_value.mpr hoverflows)
  · have hlt := (hplaced.shaped.node i node hplaced.node_eq).backward slot j hj
    exact Or.inl (hplaced.accepted (course.numbered k) (Nat.lt_trans hlt hplaced.lt_size) hresult).1

/-- The literals of a new expression are operands of its tasks. -/
theorem Creates.exists_operand {e : Expression} {graph : TaskGraph}
    (h : course.Creates k e graph) {node : Node} (hnode : node ∈ graph.nodes) {slot : Slot}
    {value : Binary64} (hvalue : node.args.get slot = some value) :
    ∃ t ∈ (course.memory (k + 1)).tasks, t.args.get slot = some value := by
  obtain ⟨i, hi⟩ := List.getElem?_of_mem hnode
  obtain ⟨t, ht, hfresh⟩ := Task.fresh_ofGraph h.shaped e.id (course.memory k).lastTask hi
  exact ⟨t, h.mem (List.mem_of_getElem? ht), by rw [hfresh.args_eq, hvalue]⟩

/-- The call at a place stores a formula with a numeral that overflows. -/
def StoresOverflow (course : Course) (k : Nat) : Prop :=
  ∃ e graph, course.Creates k e graph ∧ Formula.Overflows e.formula

/-- A stored expression whose formula has a numeral that overflows was stored by some call. -/
theorem exists_storesOverflow {e : Expression} (he : e ∈ (course.memory k).expressions)
    (hoverflows : Formula.Overflows e.formula) : ∃ l, course.StoresOverflow l := by
  obtain ⟨l, -, graph, hcreates⟩ := exists_creates he
  exact ⟨l, e, graph, hcreates, hoverflows⟩

/-- What is known of the numbers that a course stores and hands out. -/
structure Numbers (course : Course) : Prop where
  /-- Every result is finite. -/
  result : ∀ k, (∀ t ∈ (course.memory k).tasks, ∀ value, t.result = some value →
      value.isFinite = true) ∧
    ∀ e ∈ (course.memory k).expressions, ∀ value, e.result = some value → value.isFinite = true
  /-- Every operand that a worker is handed is stored. -/
  handed : ∀ k t, course.HandsOut k t → t ∈ (course.memory (k + 1)).tasks
  /-- A stored operand is finite, or a literal that was read as infinity. -/
  operand : ∀ k, ∀ t ∈ (course.memory k).tasks, ∀ slot value, t.args.get slot = some value →
    value.isFinite = true ∨ value = Binary64.infinity ∧ t.dependencies.get slot = none ∧
      ∃ e ∈ (course.memory k).expressions, e.id = t.expressionId ∧ Formula.Overflows e.formula
  /-- All that is stored or handed out is finite if and only if no numeral that overflows is ever
  stored. -/
  finite_iff : ((∀ k, (course.memory k).Finite) ∧ ∀ k t, course.HandsOut k t → t.FiniteArgs) ↔
    ∀ k, ¬course.StoresOverflow k

/-- Without numerals that overflow everything is finite. -/
theorem finite_of_not_storesOverflow (h : ∀ k, ¬course.StoresOverflow k) (k : Nat) :
    (course.memory k).Finite := by
  refine ⟨fun t ht slot value hvalue => ?_, fun t ht value hvalue => isFinite_of_task ht hvalue,
    fun e he value hvalue => isFinite_of_expression he hvalue⟩
  obtain hfinite | ⟨-, -, e, he, -, hoverflows⟩ := operand_cases ht hvalue
  · exact hfinite
  · obtain ⟨l, hl⟩ := exists_storesOverflow he hoverflows
    exact absurd hl (h l)

/-- With a numeral that overflows something is not finite. -/
theorem not_finite_of_storesOverflow (h : course.StoresOverflow k) :
    ¬(course.memory (k + 1)).Finite := by
  intro hfinite
  obtain ⟨e, graph, hcreates, hoverflows⟩ := h
  refine (Formula.finiteLiterals_iff hcreates.compiled).mp ?_ hoverflows
  intro node hnode slot value hvalue
  obtain ⟨t, ht, hoperand⟩ := hcreates.exists_operand hnode hvalue
  exact hfinite.operand t ht slot value hoperand

/-- What the numbers of any course are like. -/
theorem numbers (course : Course) : course.Numbers where
  result k := ⟨fun _ ht _ hvalue => isFinite_of_task ht hvalue,
    fun _ he _ hvalue => isFinite_of_expression he hvalue⟩
  handed _ _ hout := hout.claims.mem
  operand _ _ ht _ _ hvalue := operand_cases ht hvalue
  finite_iff := by
    constructor
    · rintro ⟨hfinite, -⟩ k hstores
      exact not_finite_of_storesOverflow hstores (hfinite (k + 1))
    · intro hnone
      have hfinite := finite_of_not_storesOverflow hnone
      exact ⟨hfinite, fun k t hout => (hfinite (k + 1)).operand t hout.claims.mem⟩

/-- **Numbers are finite but for literals that overflow.** The literals of the graph of a formula
are finite exactly when no numeral of the formula reaches `Binary64.overflow`. Whatever is
submitted, asked for and reported, all results are finite, an operand is finite or such a literal,
and all that is stored or handed out is finite exactly when no such formula is stored. -/
theorem finite_unless_overflow (input : String) (course : Course) :
    (∀ graph, Formula.compile input = .ok graph →
      (graph.FiniteLiterals ↔ ¬Formula.Overflows input)) ∧ course.Numbers :=
  ⟨fun _ hgraph => Formula.finiteLiterals_iff hgraph, numbers course⟩

/-- A numeral of `oversized` overflows, since its graph has a literal that is not finite; and the
numbers of the sample course are as they should be. -/
theorem finite_unless_overflow_sample :
    Formula.Overflows Formula.oversized ∧ sample.Numbers := by
  obtain ⟨hliterals, hnumbers⟩ := finite_unless_overflow Formula.oversized sample
  refine ⟨?_, hnumbers⟩
  by_contra hnone
  have hfinite := (hliterals _ Formula.compile_oversized).mpr hnone
  exact absurd (hfinite _ (List.mem_singleton_self _) .right _ rfl) (by decide)

/-- A course in which `oversized` is submitted, and then a worker asks for a task. -/
def oversized : Course where
  time _ := ⟨0, 0⟩
  step
    | 0 => .submit 7 Formula.oversized
    | _ => .read

/-- An infinity enters with a literal: the graph of `oversized` holds it, and so does the task that
is handed to the worker. -/
theorem infinity_enters :
    (∃ graph, Formula.compile Formula.oversized = .ok graph ∧ ¬graph.FiniteLiterals) ∧
      ∃ t, oversized.HandsOut 1 t ∧ ¬t.FiniteArgs := by
  have hstored : oversized.memory 1 = (Memory.empty.create ⟨0, 0⟩ 7 Formula.oversized
      ⟨[⟨.divide, ⟨some Binary64.one, some Binary64.infinity⟩, ⟨none, none⟩⟩]⟩).2 := by
    rw [oversized.memory_submit rfl, Formula.compile_oversized]
    rfl
  have hanswer : oversized.answer 1 = .ok (some ⟨1, 1, .divide,
      ⟨some Binary64.one, some Binary64.infinity⟩, ⟨none, none⟩, .processing, none⟩) := by
    rw [oversized.answer_eq 1, hstored]
    rfl
  refine ⟨⟨_, Formula.compile_oversized, fun hfinite => ?_⟩, _, ⟨rfl, hanswer⟩, fun hfinite => ?_⟩
  · exact absurd (hfinite _ (List.mem_singleton_self _) .right _ rfl) (by decide)
  · exact absurd (hfinite .right _ rfl) (by decide)

end Course

end Reckoner
