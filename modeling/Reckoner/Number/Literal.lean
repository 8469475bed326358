import Reckoner.Number.Binary64

/-!
# Reading a number

A number text is an optional sign followed by a decimal (digits with at most one point and at
least one digit, then an optional exponent) or by one of the words `inf`, `infinity` and `nan` in
any case. Nothing else is read: no blanks, no separators, no other digits than ASCII ones. A
decimal is rounded to the nearest binary64 number.
-/

namespace Reckoner

/-- The natural number that a list of ASCII digits denotes. -/
def digitsValue (digits : List Char) : Nat :=
  digits.foldl (fun value c => 10 * value + (c.toNat - '0'.toNat)) 0

namespace Binary64

/-- An optional sign and the text behind it; `true` stands for a minus. -/
def splitSign : List Char → Bool × List Char
  | '-' :: rest => (true, rest)
  | '+' :: rest => (false, rest)
  | text => (false, text)

/-- The power of ten written behind the digits: nothing, or a mark, an optional sign and digits. -/
def readExponent? : List Char → Option Int
  | [] => some 0
  | mark :: rest =>
    let (negative, digits) := splitSign rest
    if (mark == 'e' || mark == 'E') && !digits.isEmpty && digits.all Char.isDigit then
      let size : Int := digitsValue digits
      some (if negative then -size else size)
    else none

/-- Reads digits, an optional point with further digits, and an optional exponent. -/
def readDecimal? (negative : Bool) (text : List Char) : Option Binary64 :=
  let whole := text.takeWhile Char.isDigit
  let afterWhole := text.dropWhile Char.isDigit
  let (fraction, rest) :=
    match afterWhole with
    | '.' :: behind => (behind.takeWhile Char.isDigit, behind.dropWhile Char.isDigit)
    | _ => ([], afterWhole)
  if whole.isEmpty && fraction.isEmpty then none
  else
    (readExponent? rest).map fun power =>
      ofDecimal negative (digitsValue (whole ++ fraction)) (power - fraction.length)

/-- Reads one of the words for a number that is not finite. -/
def readWord? (negative : Bool) (text : List Char) : Option Binary64 :=
  let word := String.ofList (text.map Char.toLower)
  if word == "inf" || word == "infinity" then some (ofMagnitude negative infinityMagnitude)
  else if word == "nan" then some (if negative then nan.negate else nan)
  else none

/-- The number that a text denotes, if it denotes one. -/
def ofText? (text : String) : Option Binary64 :=
  let (negative, unsigned) := splitSign text.toList
  (readWord? negative unsigned).or (readDecimal? negative unsigned)

end Binary64

end Reckoner
