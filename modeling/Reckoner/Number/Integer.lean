import Reckoner.Number.Literal

/-!
# Reading an integer

An integer text is an optional sign followed by digits, and nothing else.
-/

namespace Reckoner

/-- The integer that a text denotes, if it denotes one. -/
def integerOf? (text : String) : Option Int :=
  let (negative, digits) := Binary64.splitSign text.toList
  if digits.isEmpty || !digits.all Char.isDigit then none
  else
    let n : Int := digitsValue digits
    some (if negative then -n else n)

/-- The integer that a text denotes, if it fits into 64 bits with a sign. -/
def signedWordOf? (text : String) : Option Int :=
  (integerOf? text).filter fun n => -0x8000000000000000 ≤ n && n < 0x8000000000000000

example : integerOf? "+007" = some 7 ∧ integerOf? "-" = none ∧ integerOf? " 1" = none := by decide

end Reckoner
