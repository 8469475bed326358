import Reckoner.Operands
import Reckoner.Wire.Token

/-!
# Records on the wire

A message is a record of named fields. It is written as a map, with the fields in the order of
their declaration. It is read from a map in any order, whose keys are names or numbers of fields,
or from an array of the fields in order. Unknown keys are skipped, and a field that comes twice is
an error; so is one that is missing, unless it has a value for that case.
-/

namespace Reckoner.Wire

/-- What a field holds. -/
inductive Kind where
  | integer
  | number
  | text
  | operands
deriving DecidableEq, Repr

/-- The value of a field. -/
inductive Value where
  | integer (n : Int)
  | number (x : Binary64)
  | text (s : String)
  | operands (args : Operands (Option Binary64))
deriving DecidableEq, Repr

/-- A field of a record. -/
structure Field where
  /-- The key of the field. -/
  name : String
  /-- What the field holds. -/
  kind : Kind
  /-- The value of the field when it is missing. -/
  fallback : Option Value

/-- A field that must be there. -/
def Field.required (name : String) (kind : Kind) : Field := ⟨name, kind, none⟩

/-- A text that is empty when it is missing. -/
def Field.optionalText (name : String) : Field := ⟨name, .text, some (.text "")⟩

/-! ## Writing -/

/-- Writes an operand that may be missing. -/
def writeOperand : Option Binary64 → List UInt8
  | none => [0xc0]
  | some x => writeNumber x

/-- Writes a value. -/
def Value.write : Value → List UInt8
  | integer n => writeInteger n
  | number x => writeNumber x
  | text s => writeText s
  | operands args => writeHead 0x90 2 ++ writeOperand args.left ++ writeOperand args.right

/-- Writes fields with their values. -/
def writeFields (fields : List Field) (values : List Value) : List UInt8 :=
  (fields.zip values).flatMap fun (field, value) => writeText field.name ++ value.write

/-- Writes a record as a map. -/
def writeRecord (fields : List Field) (values : List Value) : List UInt8 :=
  writeHead 0x80 fields.length ++ writeFields fields values

/-! ## Reading -/

/-- The integer that a token denotes, if it fits into 64 bits. -/
def Token.integer? : Token → Option Int
  | unsigned n => if n < 0x8000000000000000 then some n else none
  | signed n => some n
  | _ => none

/-- The number that a token denotes; an integer is rounded. -/
def Token.number? : Token → Option Binary64
  | number x => some x
  | unsigned n => some (Binary64.ofInt n)
  | signed n => some (Binary64.ofInt n)
  | _ => none

/-- The text that a token denotes. -/
def Token.text? : Token → Option String
  | bytes payload => Text.ofBytes? payload
  | _ => none

/-- The operand that a token denotes. -/
def Token.operand? : Token → Option (Option Binary64)
  | nil => some none
  | token => token.number?.map some

/-- Reads two operands. -/
def readOperands? (bytes : List UInt8) : Option (Operands (Option Binary64) × List UInt8) := do
  let (left, rest) ← Token.read? bytes
  let (right, rest) ← Token.read? rest
  return (⟨← left.operand?, ← right.operand?⟩, rest)

/-- Reads a value of a kind, and what stands behind it. -/
def Value.read? (kind : Kind) (bytes : List UInt8) : Option (Value × List UInt8) := do
  let (token, rest) ← Token.read? bytes
  match kind with
  | .integer => return (.integer (← token.integer?), rest)
  | .number => return (.number (← token.number?), rest)
  | .text => return (.text (← token.text?), rest)
  | .operands =>
    if token = .array 2 then
      let (args, rest) ← readOperands? rest
      return (.operands args, rest)
    else none

/-- What a key in a map names. -/
inductive Key where
  /-- The field with this number. -/
  | known (position : Nat)
  /-- No field of the record. -/
  | unknown
deriving DecidableEq, Repr

/-- The key that a token denotes: the name or the number of a field. Other texts and numbers name no
field; other tokens are no keys. -/
def Key.ofToken? (fields : List Field) : Token → Option Key
  | .bytes payload =>
    match fields.findIdx? fun field => Text.toBytes field.name == payload with
    | some position => some (.known position)
    | none => some .unknown
  | .unsigned n => some (if n < fields.length then .known n else .unknown)
  | _ => none

/-- The values of the fields that have been read. -/
abbrev Slots : Type := List (Option Value)

/-- Reads one key with its value into the slots. -/
def readEntry? (fields : List Field) (slots : Slots) (bytes : List UInt8) :
    Option (Slots × List UInt8) := do
  let (token, rest) ← Token.read? bytes
  match ← Key.ofToken? fields token with
  | .unknown => return (slots, ← skip? rest)
  | .known position =>
    let field ← fields[position]?
    match slots[position]? with
    | some none =>
      let (value, rest) ← Value.read? field.kind rest
      return (slots.set position (some value), rest)
    | _ => none

/-- Reads so many entries of a map into the slots. -/
def readEntries? (fields : List Field) : Nat → Slots → List UInt8 → Option (Slots × List UInt8)
  | 0, slots, bytes => some (slots, bytes)
  | count + 1, slots, bytes => do
    let (slots, rest) ← readEntry? fields slots bytes
    readEntries? fields count slots rest

/-- Reads so many elements of an array into the slots of the fields in order. -/
def readElements? : List Field → Nat → List UInt8 → Option (Slots × List UInt8)
  | fields, 0, bytes => some (fields.map fun _ => none, bytes)
  | [], _ + 1, _ => none
  | field :: fields, count + 1, bytes => do
    let (value, rest) ← Value.read? field.kind bytes
    let (slots, rest) ← readElements? fields count rest
    return (some value :: slots, rest)

/-- The values of all fields, with the fallbacks of those that are missing. -/
def complete? (fields : List Field) (slots : Slots) : Option (List Value) :=
  (fields.zip slots).mapM fun (field, slot) => slot.or field.fallback

/-- Reads a record at the front of some bytes; what stands behind it is not looked at. -/
def readRecord? (fields : List Field) (bytes : List UInt8) : Option (List Value) := do
  let (token, rest) ← Token.read? bytes
  let (slots, _) ←
    match token with
    | .map count => readEntries? fields count (fields.map fun _ => none) rest
    | .array count => readElements? fields count rest
    | _ => none
  complete? fields slots

end Reckoner.Wire
