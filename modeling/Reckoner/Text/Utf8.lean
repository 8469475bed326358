/-!
# Texts as bytes

A text is sent as its UTF-8 bytes. Bytes that come from elsewhere are read in two ways: strictly,
where a sequence that is not UTF-8 is refused, and leniently, where every longest broken sequence
becomes one replacement character. The lenient reader also honours a byte order mark, which may
announce UTF-16.
-/

namespace Reckoner.Text

/-- The UTF-8 bytes of a text. -/
def toBytes (text : String) : List UInt8 := text.toUTF8.data.toList

/-- The text with these UTF-8 bytes, if they are UTF-8. -/
def ofBytes? (bytes : List UInt8) : Option String := String.fromUTF8? ⟨bytes.toArray⟩

/-- A text is read back from its bytes. -/
@[simp] theorem ofBytes?_toBytes (text : String) : ofBytes? (toBytes text) = some text := by
  have h : (text.toByteArray).IsValidUTF8 := text.isValidUTF8
  simp only [ofBytes?, toBytes, Array.toArray_toList, String.toUTF8]
  exact dif_pos h

/-- What stands for bytes that are no character. -/
def replacement : Char := '\uFFFD'

/-- A character of which some bytes are still to come. -/
structure Unfinished where
  /-- How many bytes are to come after the next one. -/
  more : Nat
  /-- The least byte that can come next. -/
  low : Nat
  /-- The largest byte that can come next. -/
  high : Nat
  /-- The bits that the bytes so far have brought. -/
  bits : Nat

/-- What the first byte of a sequence begins: a character of its own, or a longer sequence whose
second byte is bounded so that nothing is written longer than needed and no surrogate is written
at all. -/
def Unfinished.ofFirst (byte : Nat) : Char ⊕ Unfinished :=
  if byte < 0x80 then .inl (Char.ofNat byte)
  else if 0xc2 ≤ byte ∧ byte < 0xe0 then .inr ⟨0, 0x80, 0xbf, byte - 0xc0⟩
  else if 0xe0 ≤ byte ∧ byte < 0xf0 then
    .inr ⟨1, if byte = 0xe0 then 0xa0 else 0x80, if byte = 0xed then 0x9f else 0xbf, byte - 0xe0⟩
  else if 0xf0 ≤ byte ∧ byte < 0xf5 then
    .inr ⟨2, if byte = 0xf0 then 0x90 else 0x80, if byte = 0xf4 then 0x8f else 0xbf, byte - 0xf0⟩
  else .inl replacement

/-- Reads UTF-8 leniently from within a character or between two. -/
def decodeFrom : Option Unfinished → List UInt8 → List Char
  | none, [] => []
  | some _, [] => [replacement]
  | none, byte :: rest =>
    match Unfinished.ofFirst byte.toNat with
    | .inl c => c :: decodeFrom none rest
    | .inr p => decodeFrom (some p) rest
  | some p, byte :: rest =>
    let n := byte.toNat
    if p.low ≤ n ∧ n ≤ p.high then
      let bits := 64 * p.bits + (n - 0x80)
      match p.more with
      | 0 => Char.ofNat bits :: decodeFrom none rest
      | more + 1 => decodeFrom (some ⟨more, 0x80, 0xbf, bits⟩) rest
    else
      replacement ::
        match Unfinished.ofFirst n with
        | .inl c => c :: decodeFrom none rest
        | .inr q => decodeFrom (some q) rest

/-- The text of some bytes, with replacement characters where they are not UTF-8. -/
def ofBytes (bytes : List UInt8) : String := String.ofList (decodeFrom none bytes)

/-- Whether a UTF-16 unit is the first half of a pair. -/
def isLeading (unit : Nat) : Bool := 0xd800 ≤ unit && unit < 0xdc00

/-- Whether a UTF-16 unit is the second half of a pair. -/
def isTrailing (unit : Nat) : Bool := 0xdc00 ≤ unit && unit < 0xe000

/-- Reads UTF-16 leniently behind the first half of a pair, if there is one; `combine` joins the
two bytes of a unit. -/
def decodeUnits (combine : Nat → Nat → Nat) : Option Nat → List UInt8 → List Char
  | none, [] => []
  | none, [_] => [replacement]
  | some _, [] => [replacement]
  | some _, [_] => [replacement]
  | pending, first :: second :: rest =>
    let unit := combine first.toNat second.toNat
    let alone : List Char :=
      if isLeading unit then decodeUnits combine (some unit) rest
      else if isTrailing unit then replacement :: decodeUnits combine none rest
      else Char.ofNat unit :: decodeUnits combine none rest
    match pending with
    | none => alone
    | some leading =>
      if isTrailing unit then
        Char.ofNat (0x10000 + 1024 * (leading - 0xd800) + (unit - 0xdc00)) ::
          decodeUnits combine none rest
      else replacement :: alone

/-- The text of an answer's body: UTF-8 unless a byte order mark says otherwise. The mark itself
is no part of the text. -/
def ofMarkedBytes : List UInt8 → String
  | 0xef :: 0xbb :: 0xbf :: rest => ofBytes rest
  | 0xff :: 0xfe :: rest => String.ofList (decodeUnits (fun low high => 256 * high + low) none rest)
  | 0xfe :: 0xff :: rest => String.ofList (decodeUnits (fun high low => 256 * high + low) none rest)
  | bytes => ofBytes bytes

/-- Two broken sequences, one of them cut short, are two replacement characters. -/
example : ofBytes [0x41, 0xe2, 0x82, 0xff, 0x42] = "A\uFFFD\uFFFDB" := by decide

end Reckoner.Text
