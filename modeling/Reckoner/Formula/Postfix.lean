import Reckoner.Operation
import Reckoner.Formula.Error
import Reckoner.Formula.Token

/-!
# The postfix form of a formula

Operators wait on a stack until what binds at least as strongly before them has been written.
All operations group to the left, the power included. A minus is the unary one at the start,
behind an opening parenthesis and behind any operator; it binds more weakly than the power, so a
power directly before a unary minus is written before its right operand and is refused later.
-/

namespace Reckoner.Formula

/-- One item of a postfix form. -/
inductive Item where
  /-- An operand, not yet read as a number. -/
  | literal (text : String)
  /-- An operation on the operands before it. -/
  | operation (op : Operation)
deriving DecidableEq, Repr

/-- What waits on the stack. -/
inductive Pending where
  | parenthesis
  | operation (op : Operation)
deriving DecidableEq, Repr

/-- How strongly an operation binds. -/
def precedence : Operation → Nat
  | .add | .subtract => 1
  | .multiply | .divide => 2
  | .negate => 3
  | .power => 4

/-- The binary operation that an operator character stands for. -/
def binaryOperation? : Char → Option Operation
  | '+' => some .add
  | '-' => some .subtract
  | '*' => some .multiply
  | '/' => some .divide
  | '^' => some .power
  | _ => none

/-- Whether a minus behind this token is the unary one. -/
def opensOperand : Option Token → Bool
  | none => true
  | some (.operator _) => true
  | some .leftParenthesis => true
  | some _ => false

/-- The operation that an operator character stands for behind a given token. -/
def operationOf (previous : Option Token) (c : Char) : Except Error Operation :=
  if c == '-' && opensOperand previous then .ok .negate
  else
    match binaryOperation? c with
    | some op => .ok op
    | none => .error (.unsupportedOperator c)

/-- Takes from the stack the operations that bind at least as strongly as `op`. -/
def release (op : Operation) : List Pending → List Item × List Pending
  | .operation top :: rest =>
    if precedence op ≤ precedence top then
      let (items, left) := release op rest
      (.operation top :: items, left)
    else ([], .operation top :: rest)
  | stack => ([], stack)

/-- Takes from the stack everything up to the innermost open parenthesis, and that too. -/
def close : List Pending → Except Error (List Item × List Pending)
  | .operation top :: rest => do
    let (items, left) ← close rest
    return (.operation top :: items, left)
  | .parenthesis :: rest => .ok ([], rest)
  | [] => .error .unopenedParenthesis

/-- Takes everything from the stack at the end of the formula. -/
def drain : List Pending → Except Error (List Item)
  | .operation top :: rest => do
    let items ← drain rest
    return .operation top :: items
  | .parenthesis :: _ => .error .unclosedParenthesis
  | [] => .ok []

/-- What one token behind `previous` writes, and the stack it leaves. -/
def advance (previous : Option Token) (stack : List Pending) :
    Token → Except Error (List Item × List Pending)
  | .number text => .ok ([.literal text], stack)
  | .unknown c => .ok ([.literal (String.singleton c)], stack)
  | .leftParenthesis => .ok ([], .parenthesis :: stack)
  | .rightParenthesis => close stack
  | .operator c => do
    let op ← operationOf previous c
    let (items, left) := release op stack
    return (items, .operation op :: left)

/-- The items that the tokens behind `previous` write, starting from a stack. -/
def arrange (previous : Option Token) (stack : List Pending) :
    List Token → Except Error (List Item)
  | [] => drain stack
  | token :: rest => do
    let (items, left) ← advance previous stack token
    let more ← arrange (some token) left rest
    return items ++ more

/-- The postfix form of a list of tokens. A form of a single item is refused. -/
def toPostfix (tokens : List Token) : Except Error (List Item) := do
  let items ← arrange none [] tokens
  if items.length = 1 then .error .tooFewOperands else .ok items

end Reckoner.Formula
