import Reckoner.Number.Literal
import Reckoner.Text.Hex
import Reckoner.Text.Utf8

/-!
# The tokens of a JSON text

A JSON text arrives as bytes; a byte is looked at as the character with its number. Reading tokens
goes on up to the first place where there is none, and marks it: what is in front of that place
keeps its meaning. A quoted text that is no text, since its bytes or its escapes make no
characters, is a token nevertheless, for it may stand where its meaning does not matter.
-/

namespace Reckoner.Json

/-- A token. -/
inductive Token where
  | openArray
  | closeArray
  | openObject
  | closeObject
  | comma
  | colon
  /-- One of the words for null, true and false. -/
  | word
  /-- A number; infinite if it is too large. -/
  | number (x : Binary64)
  /-- A quoted text, if it is a text. -/
  | text (s : Option String)
  /-- No token. -/
  | broken
deriving DecidableEq, Repr

/-! ## Quoted texts -/

/-- A part of a quoted text. -/
inductive Piece where
  | byte (b : UInt8)
  /-- A UTF-16 unit, given by an escape. -/
  | unit (n : Nat)
deriving DecidableEq, Repr

/-- What a backslash and a letter stand for. -/
def escaped? (c : Char) : Option Char :=
  match c with
  | '"' => some '"'
  | '\\' => some '\\'
  | '/' => some '/'
  | 'b' => some '\x08'
  | 'f' => some '\x0c'
  | 'n' => some '\n'
  | 'r' => some '\r'
  | 't' => some '\t'
  | _ => none

/-- Puts a part in front of parts that have been read. -/
def Piece.before (piece : Piece) (read : Option (List Piece × List Char)) :
    Option (List Piece × List Char) :=
  read.map fun (pieces, rest) => (piece :: pieces, rest)

/-- Reads a quoted text behind its opening quote. -/
def readPieces? : List Char → Option (List Piece × List Char)
  | [] => none
  | '"' :: rest => some ([], rest)
  | '\\' :: 'u' :: a :: b :: c :: d :: rest =>
    (Text.hexNumber? [a, b, c, d]).bind fun n => (Piece.unit n).before (readPieces? rest)
  | '\\' :: c :: rest =>
    (escaped? c).bind fun c => (Piece.byte c.toNat.toUInt8).before (readPieces? rest)
  | c :: rest =>
    if c.toNat < 0x20 then none else (Piece.byte c.toNat.toUInt8).before (readPieces? rest)

/-- The bytes that the parts make up; units must come as characters or as pairs. -/
def bytesOfPieces? : List Piece → Option (List UInt8)
  | [] => some []
  | .byte b :: rest => (bytesOfPieces? rest).map (b :: ·)
  | .unit n :: rest =>
    let character (c : Nat) (read : Option (List UInt8)) :=
      read.map (Text.toBytes (Char.ofNat c).toString ++ ·)
    if Text.isLeading n then
      match rest with
      | .unit m :: rest =>
        if Text.isTrailing m then
          character (0x10000 + 1024 * (n - 0xd800) + (m - 0xdc00)) (bytesOfPieces? rest)
        else none
      | _ => none
    else if Text.isTrailing n then none
    else character n (bytesOfPieces? rest)

/-- The text that the parts make up. -/
def textOfPieces? (pieces : List Piece) : Option String :=
  (bytesOfPieces? pieces).bind Text.ofBytes?

/-- Something is left behind a quoted text only of what came behind its opening quote. -/
theorem length_le_of_readPieces? {text rest : List Char} {pieces : List Piece}
    (h : readPieces? text = some (pieces, rest)) : rest.length ≤ text.length := by
  fun_induction readPieces? text generalizing pieces rest with
  | case1 => simp at h
  | case2 => simp_all
  | case3 a b c d text ih =>
    simp only [Piece.before, Option.bind_eq_some_iff, Option.map_eq_some_iff] at h
    obtain ⟨n, -, ⟨inner, left⟩, hread, heq⟩ := h
    obtain ⟨-, rfl⟩ := Prod.mk.inj heq
    have := ih hread
    simp only [List.length_cons]
    omega
  | case4 c text _ ih =>
    simp only [Piece.before, Option.bind_eq_some_iff, Option.map_eq_some_iff] at h
    obtain ⟨n, -, ⟨inner, left⟩, hread, heq⟩ := h
    obtain ⟨-, rfl⟩ := Prod.mk.inj heq
    have := ih hread
    simp only [List.length_cons]
    omega
  | case5 => simp at h
  | case6 c text _ _ _ _ ih =>
    simp only [Piece.before, Option.map_eq_some_iff] at h
    obtain ⟨⟨inner, left⟩, hread, heq⟩ := h
    obtain ⟨-, rfl⟩ := Prod.mk.inj heq
    have := ih hread
    simp only [List.length_cons]
    omega

/-! ## Numbers -/

/-- The digits at the front of a text, if there are any, and what follows. -/
def readDigits? (text : List Char) : Option (List Char × List Char) :=
  let digits := text.takeWhile Char.isDigit
  if digits.isEmpty then none else some (digits, text.dropWhile Char.isDigit)

/-- The digits of the whole part of a number: a zero alone, or no zero in front. -/
def readWhole? (text : List Char) : Option (List Char × List Char) :=
  (readDigits? text).filter fun (digits, _) => digits.length = 1 || digits.head? != some '0'

/-- The digits of the fraction, none if there is no point. -/
def readFraction? : List Char → Option (List Char × List Char)
  | '.' :: rest => readDigits? rest
  | text => some ([], text)

/-- The power of ten, zero if there is no mark. -/
def readPower? : List Char → Option (Int × List Char)
  | mark :: rest =>
    if mark = 'e' ∨ mark = 'E' then
      let (negative, unsigned) := Binary64.splitSign rest
      (readDigits? unsigned).map fun (digits, rest) =>
        let size : Int := digitsValue digits
        (if negative then -size else size, rest)
    else some (0, mark :: rest)
  | [] => some (0, [])

/-- Reads a number without its sign. -/
def readUnsigned? (negative : Bool) (text : List Char) : Option (Binary64 × List Char) := do
  let (whole, rest) ← readWhole? text
  let (fraction, rest) ← readFraction? rest
  let (power, rest) ← readPower? rest
  let digits := digitsValue (whole ++ fraction)
  return (Binary64.ofDecimal negative digits (power - fraction.length), rest)

theorem length_lt_of_readDigits? {text digits rest : List Char}
    (h : readDigits? text = some (digits, rest)) : rest.length < text.length := by
  simp only [readDigits?] at h
  split at h
  · simp at h
  · rename_i hdigits
    obtain ⟨-, rfl⟩ := Prod.mk.inj (Option.some.inj h)
    have happend : text.takeWhile Char.isDigit ++ text.dropWhile Char.isDigit = text :=
      List.takeWhile_append_dropWhile
    have hlength := congrArg List.length happend
    rw [List.length_append] at hlength
    have := List.length_pos_iff.2 (mt List.isEmpty_iff.2 hdigits)
    omega

theorem length_le_of_readFraction? {text digits rest : List Char}
    (h : readFraction? text = some (digits, rest)) : rest.length ≤ text.length := by
  unfold readFraction? at h
  split at h
  · have := length_lt_of_readDigits? h
    simp only [List.length_cons]
    omega
  · simp_all

theorem length_splitSign_le (text : List Char) :
    (Binary64.splitSign text).2.length ≤ text.length := by
  unfold Binary64.splitSign
  split <;> simp

theorem length_le_of_readPower? {text rest : List Char} {power : Int}
    (h : readPower? text = some (power, rest)) : rest.length ≤ text.length := by
  unfold readPower? at h
  split at h
  · rename_i mark behind
    split at h
    · simp only [Option.map_eq_some_iff] at h
      obtain ⟨⟨digits, left⟩, hread, heq⟩ := h
      obtain ⟨-, rfl⟩ := Prod.mk.inj heq
      have hdigits := length_lt_of_readDigits? hread
      have hsign := length_splitSign_le behind
      simp only [List.length_cons]
      omega
    · simp_all
  · simp_all

/-- Something is left behind a number, and less than the text itself. -/
theorem length_lt_of_readUnsigned? {negative : Bool} {text rest : List Char} {x : Binary64}
    (h : readUnsigned? negative text = some (x, rest)) : rest.length < text.length := by
  simp only [readUnsigned?, Option.bind_eq_bind, Option.bind_eq_some_iff, Prod.exists,
    Option.pure_def, Option.some.injEq, Prod.mk.injEq] at h
  obtain ⟨whole, behindWhole, hwhole, fraction, behindFraction, hfraction, power, behind, hpower,
    -, rfl⟩ := h
  have h1 : behindWhole.length < text.length :=
    length_lt_of_readDigits? (Option.eq_some_of_filter_eq_some hwhole)
  have h2 := length_le_of_readFraction? hfraction
  have h3 := length_le_of_readPower? hpower
  omega

/-! ## All tokens -/

/-- Whether a character only separates tokens. -/
def isSpace (c : Char) : Bool := c == ' ' || c == '\n' || c == '\t' || c == '\r'

/-- The rest of a text behind some letters. -/
def stripWord? (word : String) (text : List Char) : Option (Token × List Char) :=
  if word.toList.isPrefixOf text then some (.word, text.drop word.length) else none

/-- The token that begins with a character, and what follows. -/
def readToken? (c : Char) (rest : List Char) : Option (Token × List Char) :=
  match c with
  | '[' => some (.openArray, rest)
  | ']' => some (.closeArray, rest)
  | '\x7b' => some (.openObject, rest)
  | '\x7d' => some (.closeObject, rest)
  | ',' => some (.comma, rest)
  | ':' => some (.colon, rest)
  | 'n' => stripWord? "ull" rest
  | 't' => stripWord? "rue" rest
  | 'f' => stripWord? "alse" rest
  | '"' => (readPieces? rest).map fun (pieces, rest) => (.text (textOfPieces? pieces), rest)
  | '-' => (readUnsigned? true rest).map fun (x, rest) => (.number x, rest)
  | c => (readUnsigned? false (c :: rest)).map fun (x, rest) => (.number x, rest)

theorem length_le_of_stripWord? {word : String} {text rest : List Char} {token : Token}
    (h : stripWord? word text = some (token, rest)) : rest.length ≤ text.length := by
  unfold stripWord? at h
  split at h
  · obtain ⟨-, rfl⟩ := Prod.mk.inj (Option.some.inj h)
    simp
  · simp at h

/-- What follows a token is no longer than what follows its first character. -/
theorem length_le_of_readToken? {c : Char} {text rest : List Char} {token : Token}
    (h : readToken? c text = some (token, rest)) : rest.length ≤ text.length := by
  unfold readToken? at h
  split at h
  · simp_all
  · simp_all
  · simp_all
  · simp_all
  · simp_all
  · simp_all
  · exact length_le_of_stripWord? h
  · exact length_le_of_stripWord? h
  · exact length_le_of_stripWord? h
  · simp only [Option.map_eq_some_iff] at h
    obtain ⟨⟨pieces, left⟩, hread, heq⟩ := h
    obtain ⟨-, rfl⟩ := Prod.mk.inj heq
    exact length_le_of_readPieces? hread
  · simp only [Option.map_eq_some_iff] at h
    obtain ⟨⟨x, left⟩, hread, heq⟩ := h
    obtain ⟨-, rfl⟩ := Prod.mk.inj heq
    exact Nat.le_of_lt (length_lt_of_readUnsigned? hread)
  · simp only [Option.map_eq_some_iff] at h
    obtain ⟨⟨x, left⟩, hread, heq⟩ := h
    obtain ⟨-, rfl⟩ := Prod.mk.inj heq
    exact Nat.le_of_lt_succ (length_lt_of_readUnsigned? hread)

/-- The tokens of a text, up to the first place where there is none. -/
def tokensOf : List Char → List Token
  | [] => []
  | c :: rest =>
    if isSpace c then tokensOf rest
    else
      match h : readToken? c rest with
      | none => [.broken]
      | some (token, behind) =>
        have := length_le_of_readToken? h
        token :: tokensOf behind
termination_by text => text.length

/-- The tokens of a text that arrived as bytes. -/
def tokens (bytes : List UInt8) : List Token := tokensOf (bytes.map fun b => Char.ofNat b.toNat)

end Reckoner.Json
