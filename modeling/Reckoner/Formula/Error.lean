/-!
# What can be wrong with a formula

Each error has a code for programs and a sentence for people.
-/

namespace Reckoner.Formula

/-- Why a formula was refused. -/
inductive Error where
  /-- A closing parenthesis has no opening one. -/
  | unopenedParenthesis
  /-- An opening parenthesis is never closed. -/
  | unclosedParenthesis
  /-- The postfix form is a single item. -/
  | tooFewOperands
  /-- A binary operation, given by its symbol, lacks an operand. -/
  | notEnoughOperands (symbol : String)
  /-- A unary minus stands before nothing. -/
  | unaryMinusWithoutOperand
  /-- The postfix form is not that of one operation. -/
  | malformed (reason : String)
deriving DecidableEq, Repr

namespace Error

/-- An operator that denotes no operation. -/
def unsupportedOperator (c : Char) : Error :=
  malformed ("unsupported operator '" ++ String.singleton c ++ "'")

/-- A literal that denotes no number. -/
def invalidNumber (text : String) : Error := malformed ("invalid number '" ++ text ++ "'")

/-- A literal alone. -/
def noOperator : Error := malformed "expression has no operator"

/-- Operands are left over, or there is none. -/
def rootCount (n : Nat) : Error :=
  malformed ("expected a single root, found " ++ toString n ++ " operands")

/-- The name of the kind of error. -/
def code : Error → String
  | unopenedParenthesis => "unopened-parenthesis"
  | unclosedParenthesis => "unclosed-parenthesis"
  | tooFewOperands => "minimum-two-operands"
  | notEnoughOperands _ => "not-enough-operands"
  | unaryMinusWithoutOperand => "unary-minus-without-operand"
  | malformed _ => "rpn-conversion-error"

/-- The sentence shown to the author of the formula. -/
def message : Error → String
  | unopenedParenthesis => "closing parenthesis without a matching opening one"
  | unclosedParenthesis => "opening parenthesis is never closed"
  | tooFewOperands => "expression needs at least one operator and two operands"
  | notEnoughOperands symbol => "not enough operands for operator '" ++ symbol ++ "'"
  | unaryMinusWithoutOperand => "unary minus without operand"
  | malformed reason => "cannot convert postfix form: " ++ reason

end Error

end Reckoner.Formula
