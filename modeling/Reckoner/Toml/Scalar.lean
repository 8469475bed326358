import Reckoner.Instant
import Reckoner.Number.Literal
import Reckoner.Toml.Item

/-!
# Numbers, dates and times of a TOML document

A scalar without quotes is a run of characters that is a truth value, an integer, a number, or a
date or time as a whole. Digits may be grouped by single underscores. An integer fits into 64 bits
with a sign.
-/

namespace Reckoner.Toml

/-- Digits in groups that are joined by single underscores, without the underscores. -/
def ungroup? (isDigit : Char → Bool) (text : List Char) : Option (List Char) :=
  let groups := text.splitOn '_'
  if groups.all fun group => !group.isEmpty && group.all isDigit then some groups.flatten else none

/-- A text without its sign, and whether it was a minus. -/
def splitSign (text : List Char) : Bool × List Char := Binary64.splitSign text

/-- Whether a decimal starts with a zero that it does not need. -/
def hasLeadingZero : List Char → Bool
  | '0' :: _ :: _ => true
  | _ => false

/-- An integer that fits. -/
def fitting? (n : Int) : Option Item :=
  if -0x8000000000000000 ≤ n ∧ n < 0x8000000000000000 then some (.integer n) else none

/-- The value of a digit in any base up to sixteen. -/
def digitValue (c : Char) : Nat := if c.isDigit then c.toNat - 48 else c.toLower.toNat - 87

/-- The value of digits in a base. -/
def valueInBase (base : Nat) (digits : List Char) : Nat :=
  digits.foldl (fun n c => base * n + digitValue c) 0

/-- An integer in decimal, or without a sign in one of three other bases. -/
def integer? (text : List Char) : Option Item :=
  let inBase (base : Nat) (isDigit : Char → Bool) (digits : List Char) : Option Item := do
    fitting? (valueInBase base (← ungroup? isDigit digits))
  match text with
  | '0' :: 'x' :: digits =>
    inBase 16 (fun c => c.isDigit || ('a' ≤ c.toLower && c.toLower ≤ 'f')) digits
  | '0' :: 'o' :: digits => inBase 8 (fun c => '0' ≤ c && c ≤ '7') digits
  | '0' :: 'b' :: digits => inBase 2 (fun c => c == '0' || c == '1') digits
  | _ => do
    let (negative, unsigned) := splitSign text
    if hasLeadingZero unsigned then none
    let digits ← ungroup? Char.isDigit unsigned
    let n : Int := digitsValue digits
    fitting? (if negative then -n else n)

/-- Whether a text is an exponent: a mark, an optional sign and digits. -/
def isExponent : List Char → Bool
  | mark :: rest =>
    (mark == 'e' || mark == 'E') && (ungroup? Char.isDigit (splitSign rest).2).isSome
  | [] => false

/-- A number with a fraction or an exponent, or a word for one that is not finite. A finite number
that is too large is none. -/
def number? (text : List Char) : Option Item :=
  let unsigned := (splitSign text).2
  if unsigned = ['i', 'n', 'f'] ∨ unsigned = ['n', 'a', 'n'] then some .number
  else
    let isMark (c : Char) : Bool := c == 'e' || c == 'E'
    let whole := unsigned.takeWhile fun c => c != '.' && !isMark c
    let rest := unsigned.dropWhile fun c => c != '.' && !isMark c
    let exponent := rest.dropWhile (!isMark ·)
    let fractionRead :=
      match rest.takeWhile (!isMark ·) with
      | '.' :: digits => (ungroup? Char.isDigit digits).isSome
      | other => other.isEmpty && !exponent.isEmpty
    if (ungroup? Char.isDigit whole).isSome && !hasLeadingZero whole && fractionRead &&
        (exponent.isEmpty || isExponent exponent) &&
        Binary64.ofText? (String.ofList (text.filter (· != '_'))) != some Binary64.infinity then
      some .number
    else none

/-- What follows a date at the front of a text. -/
def readDate? (text : List Char) : Option (List Char) := do
  let (year, rest) ← Instant.readDigits? 4 text
  let rest ← Instant.readChar? ['-'] rest
  let (month, rest) ← Instant.readDigits? 2 rest
  let rest ← Instant.readChar? ['-'] rest
  let (day, rest) ← Instant.readDigits? 2 rest
  let date : Day := ⟨year, month, day⟩
  if date.isValid then some rest else none

/-- What follows a time of day at the front of a text. -/
def readTime? (text : List Char) : Option (List Char) := do
  let (hour, rest) ← Instant.readDigits? 2 text
  let rest ← Instant.readChar? [':'] rest
  let (minute, rest) ← Instant.readDigits? 2 rest
  let rest ← Instant.readChar? [':'] rest
  let (second, rest) ← Instant.readDigits? 2 rest
  let (_, rest) ← Instant.readFraction? rest
  if hour ≤ 23 ∧ minute ≤ 59 ∧ second ≤ 60 then some rest else none

/-- Whether a text is a time of day with an optional zone. -/
def isZonedTime (text : List Char) : Bool :=
  match readTime? text with
  | some rest => rest.isEmpty || (Instant.readZone? rest).isSome
  | none => false

/-- A date, a time of day, or both joined by a letter, then with an optional zone. -/
def moment? (text : List Char) : Option Item :=
  let accepted :=
    match readDate? text with
    | some [] => true
    | some (mark :: rest) => (mark == 'T' || mark == 't') && isZonedTime rest
    | none => readTime? text == some []
  if accepted then some .moment else none

/-- Whether a character may stand in a scalar without quotes. -/
def isScalarChar (c : Char) : Bool :=
  c.isAlphanum || c == '+' || c == '-' || c == '.' || c == '_' || c == ':'

/-- The scalar that a whole text is. -/
def scalarItem? (text : List Char) : Option Item :=
  if text = ['t', 'r', 'u', 'e'] then some (.boolean true)
  else if text = ['f', 'a', 'l', 's', 'e'] then some (.boolean false)
  else ((moment? text).or (number? text)).or (integer? text)

/-- Reads a scalar without quotes. A time may follow its date behind a blank. -/
def readScalar? (text : List Char) : Option (Item × List Char) :=
  let front := text.takeWhile isScalarChar
  let rest := text.dropWhile isScalarChar
  let joined : Option (Item × List Char) :=
    match rest with
    | ' ' :: behind =>
      if readDate? front = some [] ∧ isZonedTime (behind.takeWhile isScalarChar) then
        some (.moment, behind.dropWhile isScalarChar)
      else none
    | _ => none
  joined.or ((scalarItem? front).map (·, rest))

end Reckoner.Toml
