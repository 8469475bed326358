import Reckoner.Message
import Reckoner.Wire.Record

/-!
# Assignments and reports on the wire

Both messages are records. What is read is what was written, whatever stands behind it.
-/

namespace Reckoner

open Wire

namespace Report

/-- The fields of a report on the wire. -/
def fields : List Field :=
  [.required "id" .integer, .required "expression_id" .integer, .required "result" .number,
    .optionalText "error"]

/-- The values of the fields. -/
def values (report : Report) : List Value :=
  [.integer report.id, .integer report.expressionId, .number report.result, .text report.error]

/-- The report with these values. -/
def ofValues? : List Value → Option Report
  | [.integer id, .integer expressionId, .number result, .text error] =>
    some ⟨id, expressionId, result, error⟩
  | _ => none

@[simp] theorem ofValues?_values (report : Report) : ofValues? report.values = some report := rfl

/-- The bytes of a report. -/
def encode (report : Report) : List UInt8 := writeRecord fields report.values

/-- The report at the front of some bytes. -/
def decode? (bytes : List UInt8) : Option Report := do
  ofValues? (← readRecord? fields bytes)

end Report

namespace Assignment

/-- The fields of an assignment on the wire. -/
def fields : List Field :=
  [.required "id" .integer, .required "args" .operands, .required "operation" .text,
    .required "expression_id" .integer, .optionalText "error"]

/-- The values of the fields. -/
def values (a : Assignment) : List Value :=
  [.integer a.id, .operands a.args, .text a.operation, .integer a.expressionId, .text a.error]

/-- The assignment with these values. -/
def ofValues? : List Value → Option Assignment
  | [.integer id, .operands args, .text operation, .integer expressionId, .text error] =>
    some ⟨id, args, operation, expressionId, error⟩
  | _ => Option.none

@[simp] theorem ofValues?_values (a : Assignment) : ofValues? a.values = some a := rfl

/-- The bytes of an assignment. -/
def encode (a : Assignment) : List UInt8 := writeRecord fields a.values

/-- The assignment at the front of some bytes. -/
def decode? (bytes : List UInt8) : Option Assignment := do
  ofValues? (← readRecord? fields bytes)

end Assignment

end Reckoner
