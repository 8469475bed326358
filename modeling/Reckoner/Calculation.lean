import Reckoner.Number.Arithmetic
import Reckoner.Operands

/-!
# Computing one operation

The operation is given by its symbol, since a worker is told of symbols it may not know. The left
operand is always needed; the unary minus does not look at the right one. A divisor equal to zero
is an error, whatever its sign; a result that is not finite is none, but cannot be kept.
-/

namespace Reckoner

/-- Why an operation has no result. -/
inductive ComputeError where
  | divisionByZero
  /-- The operand of the slot with this number is not there. -/
  | missingOperand (slot : Nat)
  /-- The text is no operation's symbol. -/
  | unknownOperation (text : String)
deriving DecidableEq, Repr

/-- The sentence that becomes the error of the expression. -/
def ComputeError.message : ComputeError → String
  | divisionByZero => "division by zero"
  | missingOperand slot => "operand " ++ toString slot ++ " is missing"
  | unknownOperation text => Operation.unknownMessage text

/-- Applies a binary operation; a unary minus is taken of the left operand. -/
def Operation.apply (arith : Arithmetic) : Operation → Binary64 → Binary64 →
    Except ComputeError Binary64
  | .add, a, b => .ok (arith.add a b)
  | .subtract, a, b => .ok (arith.subtract a b)
  | .multiply, a, b => .ok (arith.multiply a b)
  | .divide, a, b => if b.isZero then .error .divisionByZero else .ok (arith.divide a b)
  | .power, a, b => .ok (arith.power a b)
  | .negate, a, _ => .ok a.negate

/-- The result of the operation with this symbol on these operands. -/
def calculate (arith : Arithmetic) (symbol : String) (args : Operands (Option Binary64)) :
    Except ComputeError Binary64 :=
  match Operation.ofSymbol? symbol with
  | none => .error (.unknownOperation symbol)
  | some op =>
    match args.left with
    | none => .error (.missingOperand 0)
    | some a =>
      if op = .negate then .ok a.negate
      else
        match args.right with
        | none => .error (.missingOperand 1)
        | some b => op.apply arith a b

/-- What is said of a result that is not finite. -/
def nonFiniteError (x : Binary64) : Option String :=
  if x.isNaN then some "result is NaN"
  else if x.isInfinite then some (if x.isNegative then "result is -Inf" else "result is +Inf")
  else none

end Reckoner
