import Reckoner.Database.Row
import Reckoner.Proofs.Evaluation
import Reckoner.Proofs.Instant

/-!
# Rows are read back

A column of numbers drops the sign of zero and has no place for a NaN; all other numbers are kept
bit for bit. A row of a task of which all numbers are kept is read back as that task, and the row of
an expression as one that differs at most in its times.
-/

namespace Reckoner

/-! ## Numbers -/

/-- The number; a zero without its sign. -/
def Binary64.plain (x : Binary64) : Binary64 := if x.isZero then zero else x

/-- A column keeps every number but the NaNs, and of a zero no sign. -/
theorem Binary64.stored?_eq {x : Binary64} (h : x.isNaN = false) : x.stored? = some x.plain := by
  unfold stored? plain
  rw [h]
  cases x.isZero <;> rfl

/-- Whatever is no zero is kept bit for bit. -/
theorem Binary64.plain_of_not_isZero {x : Binary64} (h : x.isZero = false) : x.plain = x := by
  unfold plain
  rw [h]
  rfl

/-- A zero is kept as the positive one. -/
theorem Binary64.plain_of_isZero {x : Binary64} (h : x.isZero = true) : x.plain = zero := by
  unfold plain
  rw [h]
  rfl

/-- What has been kept is kept as it is. -/
theorem Binary64.plain_plain (x : Binary64) : x.plain.plain = x.plain := by
  cases h : x.isZero with
  | true =>
    rw [plain_of_isZero h]
    rfl
  | false => rw [plain_of_not_isZero h, plain_of_not_isZero h]

/-- A zero is finite. -/
theorem Binary64.isFinite_of_isZero {x : Binary64} (h : x.isZero = true) : x.isFinite = true := by
  have hexponent : x.exponentField = 0 := by
    unfold isZero at h
    simpa using (Bool.and_eq_true_iff.mp h).1
  unfold isFinite
  rw [hexponent]
  rfl

/-- The sign of a zero does not matter to whether a number is finite. -/
theorem nonFiniteError_plain (x : Binary64) : nonFiniteError x.plain = nonFiniteError x := by
  cases h : x.isZero with
  | true =>
    rw [Binary64.plain_of_isZero h,
      (nonFiniteError_eq_none_iff x).mpr (Binary64.isFinite_of_isZero h)]
    rfl
  | false => rw [Binary64.plain_of_not_isZero h]

/-- What is stored as it is is no NaN, and has no sign to lose. -/
theorem Binary64.of_stored? {x : Binary64} (h : x.stored? = some x) :
    x.isNaN = false ∧ x.plain = x := by
  cases hnan : x.isNaN with
  | true =>
    unfold stored? at h
    rw [hnan] at h
    cases h
  | false =>
    rw [stored?_eq hnan] at h
    exact ⟨rfl, Option.some.inj h⟩

/-- What is kept of a number is kept as it is. -/
theorem Binary64.stored?_plain {x : Binary64} (h : x.isNaN = false) :
    x.plain.stored? = some x.plain := by
  have hnan : x.plain.isNaN = false := by
    cases hzero : x.isZero with
    | true =>
      rw [plain_of_isZero hzero]
      rfl
    | false =>
      rw [plain_of_not_isZero hzero]
      exact h
  rw [stored?_eq hnan, plain_plain]

/-! ## Tasks -/

/-- A status is read back. -/
theorem TaskStatus.ofText_text (status : TaskStatus) : ofText status.text = .ok status := by
  cases status <;> rfl

/-- A task of which a database keeps all numbers as they are. -/
structure Task.Kept (t : Task) : Prop where
  args_eq : t.args.map (·.bind Binary64.stored?) = t.args
  result_eq : t.result.bind Binary64.stored? = t.result

/-- A row that is the one of a task of which all numbers are kept. -/
structure TaskRow.Shows (row : TaskRow) (t : Task) : Prop where
  row_eq : ∃ position, row = ofTask position t
  kept : t.Kept

section TaskColumns

variable {row : TaskRow} {t : Task}

/-- The number of a task is in its row. -/
theorem TaskRow.Shows.id_eq (h : row.Shows t) : row.id = t.id := by
  obtain ⟨⟨position, rfl⟩, -⟩ := h
  rfl

/-- The number of the expression is in the row of a task. -/
theorem TaskRow.Shows.expressionId_eq (h : row.Shows t) : row.expressionId = t.expressionId := by
  obtain ⟨⟨position, rfl⟩, -⟩ := h
  rfl

/-- The dependencies of a task are in its row. -/
theorem TaskRow.Shows.dependencies_eq (h : row.Shows t) : row.dependencies = t.dependencies := by
  obtain ⟨⟨position, rfl⟩, -⟩ := h
  rfl

/-- The row of a task has the text of its status. -/
theorem TaskRow.Shows.status_eq (h : row.Shows t) : row.status = t.status.text := by
  obtain ⟨⟨position, rfl⟩, -⟩ := h
  rfl

end TaskColumns

/-- The row of a task is read back. -/
theorem TaskRow.Shows.read_eq {row : TaskRow} {t : Task} (h : row.Shows t) :
    row.read = .ok t := by
  obtain ⟨⟨position, rfl⟩, hkept⟩ := h
  unfold read ofTask
  simp only [Operation.ofSymbol?_symbol, TaskStatus.ofText_text, hkept.args_eq, hkept.result_eq]
  rfl

section TaskWrites

variable {row : TaskRow} {t : Task} {value : Binary64}

/-- A number is written into a slot. -/
theorem TaskRow.Shows.setOperand (h : row.Shows t) (slot : Slot) (hvalue : value.isNaN = false) :
    { row with args := row.args.set slot value.stored? : TaskRow }.Shows
      { t with args := t.args.set slot (some value.plain) } := by
  obtain ⟨⟨position, rfl⟩, hargs, hresult⟩ := h
  have hset : (t.args.set slot (some value.plain)).map (·.bind Binary64.stored?) =
      t.args.set slot (some value.plain) := by
    refine Operands.ext_get fun other => ?_
    rw [Operands.get_map]
    by_cases hother : other = slot
    · rw [hother, Operands.get_set_self, Option.bind_some, Binary64.stored?_plain hvalue]
    · have hsame := congrArg (·.get other) hargs
      rw [Operands.get_set_ne _ _ hother]
      exact (Operands.get_map ..).symm.trans hsame
  refine ⟨⟨position, ?_⟩, hset, hresult⟩
  simp only [ofTask, hset, hargs, Binary64.stored?_eq hvalue]

/-- A task gets another status. -/
theorem TaskRow.Shows.setStatus (h : row.Shows t) (status : TaskStatus) :
    { row with status := status.text : TaskRow }.Shows { t with status } := by
  obtain ⟨⟨position, rfl⟩, hargs, hresult⟩ := h
  exact ⟨⟨position, rfl⟩, hargs, hresult⟩

/-- A task gets its result. -/
theorem TaskRow.Shows.complete (h : row.Shows t) (hvalue : value.isNaN = false) :
    { row with
      status := TaskStatus.completed.text
      result := value.stored? : TaskRow }.Shows
      { t with status := .completed, result := some value.plain } := by
  obtain ⟨⟨position, rfl⟩, hargs, -⟩ := h
  have hresult : (some value.plain).bind Binary64.stored? = some value.plain :=
    Binary64.stored?_plain hvalue
  refine ⟨⟨position, ?_⟩, hargs, hresult⟩
  simp only [ofTask, hresult, Binary64.stored?_eq hvalue]

end TaskWrites

/-! ## Expressions -/

/-- A status is read back. -/
theorem ExpressionStatus.ofText_text (status : ExpressionStatus) :
    ofText status.text = .ok status := by
  cases status <;> rfl

/-- The expression, its times left out. -/
def Expression.timeless (e : Expression) : Expression :=
  { e with createdAt := default, updatedAt := default }

/-- A row that is the one of an expression but for the times, which can be read. -/
structure ExpressionRow.Shows (row : ExpressionRow) (e : Expression) : Prop where
  row_eq : ∃ created updated : Instant, created.Storable ∧ updated.Storable ∧
    row = ofExpression { e with createdAt := created, updatedAt := updated }
  kept : e.result.bind Binary64.stored? = e.result

section ExpressionColumns

variable {row : ExpressionRow} {e : Expression}

/-- The number of an expression is in its row. -/
theorem ExpressionRow.Shows.id_eq (h : row.Shows e) : row.id = e.id := by
  obtain ⟨⟨created, updated, -, -, rfl⟩, -⟩ := h
  rfl

/-- The user of an expression is in its row. -/
theorem ExpressionRow.Shows.userId_eq (h : row.Shows e) : row.userId = e.userId := by
  obtain ⟨⟨created, updated, -, -, rfl⟩, -⟩ := h
  rfl

/-- The row of an expression has the text of its status. -/
theorem ExpressionRow.Shows.status_eq (h : row.Shows e) : row.status = e.status.text := by
  obtain ⟨⟨created, updated, -, -, rfl⟩, -⟩ := h
  rfl

end ExpressionColumns

/-- The row of an expression is read back, times apart. -/
theorem ExpressionRow.Shows.read_eq {row : ExpressionRow} {e : Expression} (h : row.Shows e) :
    ∃ d, row.read = .ok d ∧ d.timeless = e.timeless := by
  obtain ⟨⟨created, updated, hcreated, hupdated, rfl⟩, hkept⟩ := h
  obtain ⟨createdAt, hcreatedAt⟩ := Option.isSome_iff_exists.mp hcreated.isSome_ofRfc3339?
  obtain ⟨updatedAt, hupdatedAt⟩ := Option.isSome_iff_exists.mp hupdated.isSome_ofRfc3339?
  refine ⟨{ e with createdAt, updatedAt }, ?_, rfl⟩
  unfold read ofExpression Instant.ofStored
  simp only [ExpressionStatus.ofText_text, hcreatedAt, hupdatedAt, hkept]
  rfl

section ExpressionWrites

variable {row : ExpressionRow} {e : Expression} {now : Instant}

/-- An expression is no longer pending. -/
theorem ExpressionRow.Shows.mark (h : row.Shows e) (hnow : now.Storable) :
    (if row.status = ExpressionStatus.pending.text then
      { row with status := ExpressionStatus.processing.text, updatedAt := now.stored }
    else row).Shows (if e.status = .pending then { e with status := .processing } else e) := by
  have htext : row.status = ExpressionStatus.pending.text ↔ e.status = .pending := by
    rw [h.status_eq]
    cases e.status <;> decide
  by_cases hpending : e.status = .pending
  · rw [if_pos hpending, if_pos (htext.mpr hpending)]
    obtain ⟨⟨created, updated, hcreated, -, rfl⟩, hkept⟩ := h
    exact ⟨⟨created, now, hcreated, hnow, rfl⟩, hkept⟩
  · rw [if_neg hpending, if_neg fun heq => hpending (htext.mp heq)]
    exact h

/-- An expression gets its value. -/
theorem ExpressionRow.Shows.complete {value : Binary64} (h : row.Shows e) (hnow : now.Storable)
    (hvalue : value.isNaN = false) :
    { row with
      status := ExpressionStatus.completed.text
      result := value.stored?
      updatedAt := now.stored : ExpressionRow }.Shows
      { e with status := .completed, result := some value.plain } := by
  obtain ⟨⟨created, updated, hcreated, hupdated, rfl⟩, -⟩ := h
  have hresult : (some value.plain).bind Binary64.stored? = some value.plain :=
    Binary64.stored?_plain hvalue
  refine ⟨⟨created, now, hcreated, hnow, ?_⟩, hresult⟩
  simp only [ofExpression, hresult, Binary64.stored?_eq hvalue]

/-- An expression fails. -/
theorem ExpressionRow.Shows.fail (h : row.Shows e) (hnow : now.Storable) (error : String) :
    { row with
      status := ExpressionStatus.error.text
      error
      updatedAt := now.stored : ExpressionRow }.Shows { e with status := .error, error } := by
  obtain ⟨⟨created, updated, hcreated, hupdated, rfl⟩, hkept⟩ := h
  exact ⟨⟨created, now, hcreated, hnow, rfl⟩, hkept⟩

end ExpressionWrites

end Reckoner
