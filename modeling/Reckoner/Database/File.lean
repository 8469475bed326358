import Reckoner.Database.Tables
import Reckoner.Number.BigEndian
import Reckoner.Number.Integer
import Reckoner.Text.Field
import Reckoner.Text.Hex

/-!
# The tables as a text

Between two runs of the program the tables lie in a file, one row to a line. The first field of a
line is the kind of the row, the others are its columns; a line of its own keeps the largest
numbers that were given out. Numbers are written bit by bit.
-/

namespace Reckoner

/-! ## Columns -/

/-- How a value is written into a field. -/
structure Column (α : Type) where
  write : α → String
  read? : String → Option α

namespace Column

/-- An integer in decimal. -/
def integer : Column Int := ⟨toString, integerOf?⟩

/-- A text as it stands. -/
def text : Column String := ⟨id, some⟩

/-- A number as the sixteen digits of its bits. -/
def number : Column Binary64 where
  write x := Text.hex (bigEndian 8 x.bits.toNat)
  read? field :=
    if field.length = 16 then (Text.hexNumber? field.toList).map fun n => ⟨n.toUInt64⟩ else none

/-- A value that may be missing: an empty field, or the value behind a mark. -/
def optional {α : Type} (column : Column α) : Column (Option α) where
  write
    | none => ""
    | some a => "=" ++ column.write a
  read? field :=
    match field.toList with
    | [] => some none
    | '=' :: rest => (column.read? (String.ofList rest)).map some
    | _ => none

end Column

open Column

/-! ## Rows -/

/-- The fields of a user. -/
def UserRow.fields (row : UserRow) : List String := ["user", integer.write row.id, row.name]

/-- The fields of a key. -/
def KeyRow.fields (row : KeyRow) : List String :=
  ["key", row.digest, integer.write row.userId, text.optional.write row.lastUsedAt]

/-- The fields of an expression. -/
def ExpressionRow.fields (row : ExpressionRow) : List String :=
  ["expression", integer.write row.id, integer.write row.userId, row.formula, row.status,
    number.optional.write row.result, row.error, row.createdAt, row.updatedAt]

/-- The fields of a task. -/
def TaskRow.fields (row : TaskRow) : List String :=
  ["task", integer.write row.id, integer.write row.expressionId, integer.write row.position,
    row.operation, number.optional.write row.args.left, number.optional.write row.args.right,
    integer.optional.write row.dependencies.left, integer.optional.write row.dependencies.right,
    row.status, number.optional.write row.result]

namespace Tables

/-- The fields of the line that keeps the numbers given out. -/
def lastFields (t : Tables) : List String :=
  ["last", integer.write t.lastUser, integer.write t.lastExpression, integer.write t.lastTask]

/-- The tables as lines. -/
def toText (t : Tables) : String :=
  let rows := t.users.map UserRow.fields ++ t.keys.map KeyRow.fields ++
    t.expressions.map ExpressionRow.fields ++ t.tasks.map TaskRow.fields ++ [t.lastFields]
  String.join (rows.map fun fields => Text.joinFields fields ++ "\n")

/-- Puts the row with these fields in front of its table. -/
def addRow? (t : Tables) : List String → Option Tables
  | ["user", id, name] => do
    let row : UserRow := ⟨← integer.read? id, name⟩
    return { t with users := row :: t.users }
  | ["key", digest, userId, lastUsedAt] => do
    let row : KeyRow := ⟨digest, ← integer.read? userId, ← text.optional.read? lastUsedAt⟩
    return { t with keys := row :: t.keys }
  | ["expression", id, userId, formula, status, result, error, createdAt, updatedAt] => do
    let row : ExpressionRow := {
      id := ← integer.read? id
      userId := ← integer.read? userId
      formula
      status
      result := ← number.optional.read? result
      error
      createdAt
      updatedAt }
    return { t with expressions := row :: t.expressions }
  | ["task", id, expressionId, position, operation, left, right, leftTask, rightTask, status,
      result] => do
    let row : TaskRow := {
      id := ← integer.read? id
      expressionId := ← integer.read? expressionId
      position := ← integer.read? position
      operation
      args := ⟨← number.optional.read? left, ← number.optional.read? right⟩
      dependencies := ⟨← integer.optional.read? leftTask, ← integer.optional.read? rightTask⟩
      status
      result := ← number.optional.read? result }
    return { t with tasks := row :: t.tasks }
  | ["last", user, expression, task] => do
    return { t with
      lastUser := ← integer.read? user
      lastExpression := ← integer.read? expression
      lastTask := ← integer.read? task }
  | _ => none

/-- The tables in lines. -/
def ofLines? : List String → Option Tables
  | [] => some empty
  | line :: rest => do (← ofLines? rest).addRow? (← Text.splitFields? line)

/-- The tables in a text; every line ends with a line break. -/
def ofText? (text : String) : Option Tables := ofLines? ((text.splitOn "\n").dropLast)

end Tables

end Reckoner
