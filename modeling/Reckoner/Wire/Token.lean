import Reckoner.Number.BigEndian
import Reckoner.Number.Binary64
import Reckoner.Text.Utf8

/-!
# Tokens of the wire format

Messages travel as MessagePack: a value is a marker byte, which may hold a small value itself,
and what the marker announces. A token is a value without elements, or the head of one with
elements. Writing always takes the shortest form of an integer and of a text; reading takes all.
A number that fits into its bytes is read back from them (`readNatural?_bigEndian`).
-/

namespace Reckoner.Wire

/-- The first `count` bytes, and those behind them. -/
def split? (count : Nat) (bytes : List UInt8) : Option (List UInt8 × List UInt8) :=
  if count ≤ bytes.length then some (bytes.take count, bytes.drop count) else none

/-- A number of `width` bytes, and what stands behind it. -/
def readNatural? (width : Nat) (bytes : List UInt8) : Option (Nat × List UInt8) :=
  (split? width bytes).map fun (front, rest) => (ofBigEndian front, rest)

@[simp] theorem split?_append (front rest : List UInt8) :
    split? front.length (front ++ rest) = some (front, rest) := by
  simp [split?]

/-- A number that fits is read back, and what stands behind it is left. -/
theorem readNatural?_bigEndian {width n : Nat} (h : n < byteCapacity width) (rest : List UInt8) :
    readNatural? width (bigEndian width n ++ rest) = some (n, rest) := by
  have hs := split?_append (bigEndian width n) rest
  rw [length_bigEndian] at hs
  simp only [readNatural?, hs, Option.map_some, ofBigEndian_bigEndian h]

/-- A number in two's complement of `width` bytes, and what stands behind it. -/
def readSigned? (width : Nat) (bytes : List UInt8) : Option (Int × List UInt8) :=
  (readNatural? width bytes).map fun (n, rest) =>
    (if 2 * n < byteCapacity width then (n : Int) else (n : Int) - byteCapacity width, rest)

/-- A length of `width` bytes and so many bytes, and what stands behind them. -/
def readSized? (width : Nat) (bytes : List UInt8) : Option (List UInt8 × List UInt8) := do
  let (count, rest) ← readNatural? width bytes
  split? count rest

/-- A value without elements, or the head of a value with elements. -/
inductive Token where
  | nil
  | boolean (value : Bool)
  /-- An integer in a form that has no sign. -/
  | unsigned (value : Nat)
  /-- An integer in a form that has a sign. -/
  | signed (value : Int)
  | number (value : Binary64)
  /-- Text or raw bytes; which of the two makes no difference to a reader. -/
  | bytes (payload : List UInt8)
  /-- The head of a sequence. -/
  | array (count : Nat)
  /-- The head of a sequence of keys with values. -/
  | map (count : Nat)
  /-- A value of a kind of its own. -/
  | extension (payload : List UInt8)
deriving DecidableEq, Repr

namespace Token

/-- Reads what a marker from `0xc0` to `0xdf` announces. -/
def readMarked? (marker : Nat) (rest : List UInt8) : Option (Token × List UInt8) :=
  let applied {α : Type} (f : α → Token) (read : Option (α × List UInt8)) :=
    read.map fun (value, behind) => (f value, behind)
  match marker with
  | 0xc0 => some (nil, rest)
  | 0xc2 => some (boolean false, rest)
  | 0xc3 => some (boolean true, rest)
  | 0xc4 => applied bytes (readSized? 1 rest)
  | 0xc5 => applied bytes (readSized? 2 rest)
  | 0xc6 => applied bytes (readSized? 4 rest)
  | 0xc7 => readExtension 1
  | 0xc8 => readExtension 2
  | 0xc9 => readExtension 4
  | 0xca => applied (fun n => number (Binary64.ofBinary32 n.toUInt32)) (readNatural? 4 rest)
  | 0xcb => applied (fun n => number ⟨n.toUInt64⟩) (readNatural? 8 rest)
  | 0xcc => applied unsigned (readNatural? 1 rest)
  | 0xcd => applied unsigned (readNatural? 2 rest)
  | 0xce => applied unsigned (readNatural? 4 rest)
  | 0xcf => applied unsigned (readNatural? 8 rest)
  | 0xd0 => applied signed (readSigned? 1 rest)
  | 0xd1 => applied signed (readSigned? 2 rest)
  | 0xd2 => applied signed (readSigned? 4 rest)
  | 0xd3 => applied signed (readSigned? 8 rest)
  | 0xd4 => applied extension (split? 2 rest)
  | 0xd5 => applied extension (split? 3 rest)
  | 0xd6 => applied extension (split? 5 rest)
  | 0xd7 => applied extension (split? 9 rest)
  | 0xd8 => applied extension (split? 17 rest)
  | 0xd9 => applied bytes (readSized? 1 rest)
  | 0xda => applied bytes (readSized? 2 rest)
  | 0xdb => applied bytes (readSized? 4 rest)
  | 0xdc => applied array (readNatural? 2 rest)
  | 0xdd => applied array (readNatural? 4 rest)
  | 0xde => applied map (readNatural? 2 rest)
  | 0xdf => applied map (readNatural? 4 rest)
  | _ => none
where
  /-- An extension is the length of its data, one byte for its kind, and the data. -/
  readExtension (width : Nat) : Option (Token × List UInt8) := do
    let (count, behind) ← readNatural? width rest
    let (payload, behind) ← split? (count + 1) behind
    some (extension payload, behind)

/-- Reads a token, and what stands behind it. -/
def read? : List UInt8 → Option (Token × List UInt8)
  | [] => none
  | first :: rest =>
    let marker := first.toNat
    if marker < 0x80 then some (unsigned marker, rest)
    else if marker < 0x90 then some (map (marker - 0x80), rest)
    else if marker < 0xa0 then some (array (marker - 0x90), rest)
    else if marker < 0xc0 then
      (split? (marker - 0xa0) rest).map fun (payload, behind) => (bytes payload, behind)
    else if marker < 0xe0 then readMarked? marker rest
    else some (signed ((marker : Int) - 256), rest)

end Token

/-- Writes an integer in its shortest form. -/
def writeInteger (n : Int) : List UInt8 :=
  if 0 ≤ n then
    let n := n.toNat
    if n < 0x80 then bigEndian 1 n
    else if n < 256 then 0xcc :: bigEndian 1 n
    else if n < 0x10000 then 0xcd :: bigEndian 2 n
    else if n < 0x100000000 then 0xce :: bigEndian 4 n
    else 0xcf :: bigEndian 8 n
  else if -0x20 ≤ n then bigEndian 1 (n + 256).toNat
  else if -0x80 ≤ n then 0xd0 :: bigEndian 1 (n + 256).toNat
  else if -0x8000 ≤ n then 0xd1 :: bigEndian 2 (n + 0x10000).toNat
  else if -0x80000000 ≤ n then 0xd2 :: bigEndian 4 (n + 0x100000000).toNat
  else 0xd3 :: bigEndian 8 (n + 0x10000000000000000).toNat

/-- Writes a number, always in full. -/
def writeNumber (x : Binary64) : List UInt8 := 0xcb :: bigEndian 8 x.bits.toNat

/-- Writes a text behind the shortest head for its length. -/
def writeText (text : String) : List UInt8 :=
  let payload := Text.toBytes text
  let count := payload.length
  let head :=
    if count < 32 then bigEndian 1 (0xa0 + count)
    else if count < 256 then 0xd9 :: bigEndian 1 count
    else if count < 0x10000 then 0xda :: bigEndian 2 count
    else 0xdb :: bigEndian 4 count
  head ++ payload

/-- Writes the head of a map or an array of fewer than sixteen elements; `base` is `0x80` for a
map and `0x90` for an array. -/
def writeHead (base count : Nat) : List UInt8 := bigEndian 1 (base + count)

/-! ## Skipping -/

/-- How many values stand inside the value that a token begins; none for a token that is a value. -/
def Token.elements : Token → Nat
  | .array count => count
  | .map count => 2 * count
  | _ => 0

/-- How deeply values may be nested in a message. -/
def depthLimit : Nat := 1023

/-- Skips the rest of the open values, the innermost first, each given by how many values it still
wants; `fuel` bounds the number of tokens and closings. -/
def skipOpen? : Nat → List Nat → List UInt8 → Option (List UInt8)
  | _, [], bytes => some bytes
  | 0, _ :: _, _ => none
  | fuel + 1, 0 :: outer, bytes => skipOpen? fuel outer bytes
  | fuel + 1, (wanted + 1) :: outer, bytes => do
    let (token, rest) ← Token.read? bytes
    match token with
    | .array _ | .map _ =>
      if outer.length + 2 ≤ depthLimit then
        skipOpen? fuel (token.elements :: wanted :: outer) rest
      else none
    | _ => skipOpen? fuel (wanted :: outer) rest

/-- Skips one value inside a message, whatever it is. Every token takes a byte and closes no more
than one value, so the fuel suffices. -/
def skip? (bytes : List UInt8) : Option (List UInt8) :=
  skipOpen? (2 * bytes.length + 2) [1] bytes

end Reckoner.Wire
