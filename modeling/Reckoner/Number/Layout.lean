import Reckoner.Number.Shortest

/-!
# How a number is written

Two ways of writing a number share one algorithm and differ in a record of decisions: the plain
layout of listings, which never uses an exponent, and the layout of JSON documents, which marks
whole numbers by `.0` and has no text for a number that is not finite.
-/

namespace Reckoner

/-- The decisions that make up a way of writing numbers. -/
structure NumberLayout where
  /-- Which of two equally short and near decimals is written. -/
  tie : TieRule
  /-- Whether a number is written without an exponent, by the number of digits before its
  point (zero or less for numbers below one tenth). -/
  isPositional : Int → Bool
  /-- What follows the digits of a whole number. -/
  wholeSuffix : String
  /-- The text of an infinity, by whether it is negative. -/
  infinity : Bool → String
  /-- The text of a NaN. -/
  nan : String

namespace NumberLayout

/-- Digits with a point behind the first `before` of them, without an exponent. -/
def positional (layout : NumberLayout) (digits : List Char) (before : Int) : String :=
  if before ≤ 0 then
    String.ofList (['0', '.'] ++ List.replicate (-before).toNat '0' ++ digits)
  else
    let n := before.toNat
    if digits.length ≤ n then
      String.ofList (digits ++ List.replicate (n - digits.length) '0') ++ layout.wholeSuffix
    else String.ofList (digits.take n ++ '.' :: digits.drop n)

/-- Digits with a point behind the first one, and an exponent with a sign. -/
def scientific (digits : List Char) (before : Int) : String :=
  let mantissa :=
    match digits with
    | first :: second :: rest => first :: '.' :: second :: rest
    | _ => digits
  let power := before - 1
  let sign := if power < 0 then "-" else "+"
  String.ofList mantissa ++ "e" ++ sign ++ toString power.natAbs

/-- The text of a number. -/
def render (layout : NumberLayout) (x : Binary64) : String :=
  if x.isNaN then layout.nan
  else if x.isInfinite then layout.infinity x.isNegative
  else
    let sign := if x.isNegative then "-" else ""
    if x.isZero then sign ++ layout.positional ['0'] 1
    else
      let d := Decimal.shortest layout.tie x
      let digits := Nat.toDigits 10 d.digits
      let before : Int := digits.length + d.power
      sign ++ (if layout.isPositional before then layout.positional digits before
        else scientific digits before)

/-- Listings show every digit up to the point, and no point in a whole number. -/
def plain : NumberLayout where
  tie := .away
  isPositional _ := true
  wholeSuffix := ""
  infinity negative := if negative then "-inf" else "inf"
  nan := "NaN"

/-- JSON documents use an exponent from `10 ^ 16` up and below `10 ^ (-5)`. -/
def json : NumberLayout where
  tie := .even
  isPositional before := -5 < before && before ≤ 16
  wholeSuffix := ".0"
  infinity _ := "null"
  nan := "null"

end NumberLayout

end Reckoner
