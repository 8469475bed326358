import Reckoner.Text.Blank

/-!
# Tokens of a formula

A formula is read character by character, blanks left out. Digits, points and plus signs in a
sign position run together into numbers; every other character is a token of its own. Nothing is
refused here: a character without a meaning becomes an `unknown` token.
-/

namespace Reckoner.Formula

/-- A piece of a formula. -/
inductive Token where
  /-- Digits, points and leading plus signs, not yet read as a number. -/
  | number (text : String)
  /-- One of `+ - * / ^`. -/
  | operator (c : Char)
  | leftParenthesis
  | rightParenthesis
  /-- Any other character. -/
  | unknown (c : Char)
deriving DecidableEq, Repr

/-- The text that a token was read from. -/
def Token.text : Token → String
  | number text => text
  | operator c => String.singleton c
  | leftParenthesis => "("
  | rightParenthesis => ")"
  | unknown c => String.singleton c

/-- The characters that stand for operators. -/
def isOperator (c : Char) : Bool :=
  c == '+' || c == '-' || c == '*' || c == '/' || c == '^'

/-- Whether a plus behind `previous` is a sign: at the start, behind an operator and behind an
opening parenthesis. -/
def isSignPosition : Option Char → Bool
  | none => true
  | some previous => isOperator previous || previous == '('

/-- Whether a character behind `previous` belongs to a number. -/
def isNumeral (previous : Option Char) (c : Char) : Bool :=
  c.isDigit || c == '.' || (c == '+' && isSignPosition previous)

/-- The token of a character that belongs to no number. -/
def Token.ofChar (c : Char) : Token :=
  if c == '(' then leftParenthesis
  else if c == ')' then rightParenthesis
  else if isOperator c then operator c
  else unknown c

/-- Puts a character of a number in front of the tokens that follow it. -/
def Token.consNumeral (c : Char) : List Token → List Token
  | number text :: rest => number (String.singleton c ++ text) :: rest
  | rest => number (String.singleton c) :: rest

/-- The tokens of a text without blanks that stands behind `previous`. -/
def scan (previous : Option Char) : List Char → List Token
  | [] => []
  | c :: rest =>
    if isNumeral previous c then Token.consNumeral c (scan (some c) rest)
    else Token.ofChar c :: scan (some c) rest

/-- The tokens of a formula. -/
def tokenize (input : String) : List Token :=
  scan none (input.toList.filter fun c => !Text.isBlank c)

end Reckoner.Formula
