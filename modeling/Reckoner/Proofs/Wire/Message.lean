import Reckoner.Proofs.Wire.Record
import Reckoner.Wire.Codec

/-!
# Messages that have been written

Reports and assignments are read back from their bytes, whatever stands behind them, if their
numbers fit into 64 bits. A text in a message that has arrived is not too long to be written.
-/

namespace Reckoner

open Wire

namespace Report

/-- The fields of a report can be told apart. -/
theorem sound_fields : Sound fields := ⟨by decide, by decide, by decide⟩

/-- A report is read back. -/
theorem decode?_encode_append {report : Report} (hid : IsInt64 report.id)
    (hexpression : IsInt64 report.expressionId)
    (herror : (Text.toBytes report.error).length < 0x100000000) (rest : List UInt8) :
    decode? (report.encode ++ rest) = some report := by
  have hfitting : Fitting fields report.values :=
    .cons hid (.cons hexpression (.cons trivial (.cons herror .nil)))
  simp [decode?, encode, readRecord?_append sound_fields hfitting]

/-- A report is as long as its error at least. -/
theorem length_error_le (report : Report) :
    (Text.toBytes report.error).length ≤ report.encode.length := by
  simp only [encode, writeRecord, writeFields, fields, values, Value.write, List.zip_cons_cons,
    List.flatMap_cons, List.length_append]
  simp only [writeText, List.length_append]
  omega

end Report

namespace Assignment

/-- The fields of an assignment can be told apart. -/
theorem sound_fields : Sound fields := ⟨by decide, by decide, by decide⟩

/-- An assignment is read back. -/
theorem decode?_encode_append {a : Assignment} (hid : IsInt64 a.id)
    (hexpression : IsInt64 a.expressionId)
    (hoperation : (Text.toBytes a.operation).length < 0x100000000)
    (herror : (Text.toBytes a.error).length < 0x100000000) (rest : List UInt8) :
    decode? (a.encode ++ rest) = some a := by
  have hfitting : Fitting fields a.values :=
    .cons hid (.cons trivial (.cons hoperation (.cons hexpression (.cons herror .nil))))
  simp [decode?, encode, readRecord?_append sound_fields hfitting]

/-- The assignment of a task is read back. -/
theorem decode?_encode_ofTask {task : Task} (hid : IsInt64 task.id)
    (hexpression : IsInt64 task.expressionId) :
    decode? (ofTask task).encode = some (ofTask task) := by
  have hoperation : (Text.toBytes task.operation.symbol).length < 0x100000000 := by
    cases task.operation <;> decide
  have herror : (Text.toBytes "").length < 0x100000000 := by decide
  simpa using @decode?_encode_append (ofTask task) hid hexpression hoperation herror []

/-- That there is no task is read back. -/
theorem decode?_encode_none : decode? none.encode = some none := by
  simpa using @decode?_encode_append none (by decide) (by decide) (by decide) (by decide) []

end Assignment

end Reckoner
